import ShardSync.Recovery.Manager
import ShardSync.Recovery.Service

/-!
# Source and target in one process

An exchange joins the sessions of a source to the recoveries of a target and
passes encoded messages between them. Both write to one journal.

Of the requests of a session that are outstanding the oldest is delivered
first.
-/

set_option autoImplicit false

namespace ShardSync.Recovery

structure Exchange where
  source : SourceShard
  manager : Manager
  service : Service

namespace Exchange

def journal (exchange : Exchange) : Log.Journal := exchange.service.journal

def onSource (exchange : Exchange)
    (change : Manager → SourceShard → SourceShard × Manager) : Exchange :=
  let manager := { exchange.manager with journal := exchange.journal }
  let (source, manager) := change manager exchange.source
  { source, manager, service := { exchange.service with journal := manager.journal } }

def queue (exchange : Exchange) (start : StartRequest) : Exchange :=
  exchange.onSource fun manager source => (source, manager.queue start)

/-- Gives a queued session its turn, if it need not wait. -/
def launch (exchange : Exchange) (recovery : Int64) : Exchange :=
  exchange.onSource fun manager source => manager.launch recovery source

/-- Asks a session to stop. The result says whether nobody had asked before. -/
def cancel (exchange : Exchange) (recovery : Int64) (reason : String) : Bool × Exchange :=
  let (won, manager) := exchange.manager.cancel recovery reason
  (won, { exchange with manager })

/-- A session that has been asked to stop does not wait for answers any more. -/
def abandon (exchange : Exchange) (recovery : Int64) : Exchange :=
  exchange.onSource fun manager source => manager.step recovery Sender.abandon source

/-- The request of a session whose turn it is to be delivered. -/
def next? (exchange : Exchange) (recovery : Int64) : Option Outstanding :=
  exchange.manager.sessions[recovery]?.bind (·.outstanding.head?)

/-- Delivers a request. The answer is the reply, or the failure that it
reports. -/
def deliver (exchange : Exchange) (request : Request) : Except Error Reply × Exchange :=
  let (output, service) := exchange.service.handleBytes request.write
  ((Reply.decode output).mapError Error.ofDecoding >>= Reply.toExcept, { exchange with service })

/-- A session gets the answer to its oldest request. -/
def receive (exchange : Exchange) (recovery : Int64) (answer : Except Error Reply) :
    Exchange :=
  exchange.onSource fun manager source =>
    manager.step recovery (fun sender => sender.receive 0 answer) source

end Exchange

end ShardSync.Recovery
