import ShardSync.Log.Journal
import ShardSync.Log.Scope
import ShardSync.Recovery.Inventory
import ShardSync.Recovery.Session
import ShardSync.Recovery.Source.Batches
import ShardSync.Recovery.Source.Chunks
import ShardSync.Translog.Basic

/-!
# The sending side

A session is driven by events: its turn comes, a request is answered, somebody
asks to stop. Between two events it waits for the answers to its outstanding
requests. Several chunks may be outstanding; of all other requests there is
one at a time.

The source's files are pinned, and its history is captured, when the turn of
the session comes. What is sent describes that moment.
-/

set_option autoImplicit false

namespace ShardSync.Recovery

/-- The good copy of a shard: its files and its history. -/
structure SourceShard where
  store : Store := {}
  translog : Translog := {}

/-- A request that has not been answered, and how many milliseconds its answer
is waited for. -/
structure Outstanding where
  request : Request
  timeout : Nat
deriving Repr, DecidableEq

/-- What a session has to send. -/
structure Agenda where
  inventory : Inventory := {}
  totalOps : UInt32 := 0
  batches : Batches := {}
  globalCheckpoint : Int := noOperations.toInt
deriving Repr, DecidableEq

inductive Stage where
  | queued
  | announcing
  /-- Chunks are outstanding. One more may be ready to be sent as soon as there
  is room for it; then the given pieces follow. -/
  | sending (ready? : Option Request) (pieces : List Piece)
  /-- The end of the files is outstanding. -/
  | completing
  /-- A batch is outstanding, and others follow. -/
  | replaying (batch : List Operation) (rest : Batches)
  | finalizing
  /-- The target is being told that the session has failed. -/
  | cancelling (error : Error)
  /-- The session is over. After success the target's checkpoint is known. -/
  | ended (result : Except Error Int64)

/-- What is open of a session. -/
structure Delivery where
  session : Session
  settings : Settings
  start : StartRequest
  stage : Stage := .queued
  /-- Whether the session has had its turn. One that was stopped before has not. -/
  isLaunched : Bool := false
  agenda : Agenda := {}
  /-- The requests without an answer, oldest first. -/
  outstanding : List Outstanding := []
  /-- The pinned files of the source. -/
  snapshot? : Option Snapshot := none
  /-- The phase that is being logged, and when it was entered. -/
  scope? : Option (Log.Scope × Nat) := none
  /-- The time in milliseconds, as far as the session has been told. -/
  clock : Nat := 0

namespace Delivery

def ofStart (start : StartRequest) (settings : Settings) : Delivery where
  session := .ofStart start
  settings
  start

def result? (delivery : Delivery) : Option (Except Error Int64) :=
  match delivery.stage with
  | .ended result => some result
  | _ => none

/-- Whether the session has had its turn and is not over. -/
def isRunning (delivery : Delivery) : Bool := delivery.isLaunched && delivery.result?.isNone

/-- Whether the session waits for answers that a cancellation makes needless. -/
def isWaiting (delivery : Delivery) : Bool :=
  match delivery.stage with
  | .queued | .cancelling _ | .ended _ => false
  | _ => true

/-- Asks the session to stop. It notices when it would send the next request,
or when it is told to stop waiting. The result says whether nobody had asked
before. -/
def cancel (delivery : Delivery) (reason : String) : Bool × Delivery :=
  let (won, cancellation) := delivery.session.cancellation.cancel reason
  (won, { delivery with session.cancellation := cancellation })

def window (delivery : Delivery) : Nat := max delivery.settings.maxConcurrentChunks 1

end Delivery

/-- A session at work on its source. -/
structure Sender where
  delivery : Delivery
  source : SourceShard
  journal : Log.Journal := {}

/-- A step of a session. It may fail, and what it has changed until then stays. -/
abbrev Sending (α : Type) := ExceptT Error (StateM Sender) α

namespace Sending

variable {α : Type}

/-- The outcome of a step, and the sender after it. -/
def start (step : Sending α) (sender : Sender) : Except Error α × Sender :=
  step.run.run sender

def check (outcome : Except Error α) : Sending α := ExceptT.mk (pure outcome)

def modifyDelivery (change : Delivery → Delivery) : Sending Unit :=
  modify fun sender => { sender with delivery := change sender.delivery }

def modifySession (change : Session → Session) : Sending Unit :=
  modifyDelivery fun delivery => { delivery with session := change delivery.session }

def modifyProgress (change : Progress → Progress) : Sending Unit :=
  modifySession fun session => { session with progress := change session.progress }

def setStage (stage : Stage) : Sending Unit :=
  modifyDelivery fun delivery => { delivery with stage }

/-- Moves on to the given phase, if that is allowed. -/
def transition (phase : Phase) : Sending Unit := do
  let progress ← check ((← get).delivery.session.progress.transition phase)
  modifyProgress fun _ => progress

def checkCancelled : Sending Unit := do
  check (← get).delivery.session.cancellation.check

def count (change : Log.Metrics → Log.Metrics) : Sending Unit :=
  modify fun sender => { sender with journal := sender.journal.count change }

def logLine (line : Log.Line) : Sending Unit :=
  modify fun sender => { sender with journal := sender.journal.log line }

def openScope (name : String) : Sending Unit := do
  let delivery := (← get).delivery
  let scope : Log.Scope := { name, fields := delivery.session.logFields }
  logLine scope.opened
  modifyDelivery fun delivery => { delivery with scope? := some (scope, delivery.clock) }

def closeScope (results : List (String × String)) : Sending Unit := do
  let delivery := (← get).delivery
  match delivery.scope? with
  | none => return
  | some (scope, opened) =>
      logLine (scope.completed results (delivery.clock - opened))
      modifyDelivery fun delivery => { delivery with scope? := none }

def request (command : Command) : Sending Request := do
  let session := (← get).delivery.session
  let (number, session) := session.number
  modifySession fun _ => session
  return .step number session.recovery session.shard command

def send (request : Request) (timeout : Nat) : Sending Unit :=
  modifyDelivery fun delivery =>
    { delivery with outstanding := delivery.outstanding ++ [{ request, timeout }] }

end Sending

namespace Reply

def label : Reply → String
  | .ack => "Ack"
  | .chunkAck position => s!"ChunkAck \x7b position: {position} \x7d"
  | .opsAck checkpoint => s!"OpsAck \x7b local_checkpoint: {checkpoint} \x7d"
  | .finalizeAck checkpoint => s!"FinalizeAck \x7b local_checkpoint: {checkpoint} \x7d"
  | .failure code detail =>
      s!"Failure \x7b code: {Text.Quoted.encode code}, " ++
        s!"message: {Text.Quoted.encode detail} \x7d"

def unexpected (expected : String) (reply : Reply) : Error :=
  .protocolViolation s!"expected {expected} reply, got {reply.label}"

end Reply

end ShardSync.Recovery
