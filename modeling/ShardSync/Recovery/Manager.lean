import ShardSync.Recovery.Source.Handle

/-!
# The sessions of a node

A manager holds the sessions that a node drives as the source. They are
queued, and at most a given number of them run at the same time; a session
that is stopped while it is queued tells its target and never gets its turn.
A session that is over stays until its result is collected.

The source that a session works on is not held here: several sessions may
work on the same one.
-/

set_option autoImplicit false

namespace ShardSync.Recovery

structure Manager where
  settings : Settings := {}
  /-- The sessions by the numbers of their recoveries. -/
  sessions : Std.ExtTreeMap Int64 Delivery := ∅
  journal : Log.Journal := {}

namespace Manager

def limit (manager : Manager) : Nat := max manager.settings.maxConcurrentRecoveries 1

def running (manager : Manager) : Nat := manager.sessions.values.countP (·.isRunning)

def activeSessions (manager : Manager) : Nat :=
  manager.sessions.values.countP (·.result?.isNone)

def step (manager : Manager) (recovery : Int64) (change : Sender → Sender)
    (source : SourceShard) : SourceShard × Manager :=
  match manager.sessions[recovery]? with
  | none => (source, manager)
  | some delivery =>
      let sender := change { delivery, source, journal := manager.journal }
      (sender.source, { manager with
        sessions := manager.sessions.insert recovery sender.delivery
        journal := sender.journal })

def queue (manager : Manager) (start : StartRequest) : Manager :=
  let delivery := Delivery.ofStart start manager.settings
  { manager with
    sessions := manager.sessions.insert start.recovery delivery
    journal := manager.journal.log (.ofEvent .recoveryQueued delivery.session.logFields) }

/-- Whether a queued session need not wait: there is room for it, or somebody
has asked it to stop. -/
def mayLaunch (manager : Manager) (recovery : Int64) : Bool :=
  manager.running < manager.limit ||
    manager.sessions[recovery]?.any (·.session.cancellation.isCancelled)

/-- Gives a queued session its turn, if it need not wait. -/
def launch (manager : Manager) (recovery : Int64) (source : SourceShard) :
    SourceShard × Manager :=
  if manager.mayLaunch recovery then manager.step recovery Sender.launch source
  else (source, manager)

/-- Asks a session to stop. The result says whether there is such a session, it
is not over, and nobody had asked it before. -/
def cancel (manager : Manager) (recovery : Int64) (reason : String) : Bool × Manager :=
  match manager.sessions[recovery]? with
  | none => (false, manager)
  | some delivery =>
      if delivery.result?.isSome then (false, manager)
      else
        let (won, delivery) := delivery.cancel reason
        (won, { manager with sessions := manager.sessions.insert recovery delivery })

def collect (manager : Manager) (recovery : Int64) : Option Delivery × Manager :=
  match manager.sessions[recovery]? with
  | none => (none, manager)
  | some delivery =>
      if delivery.result?.isSome then
        (some delivery, { manager with sessions := manager.sessions.erase recovery })
      else (none, manager)

end Manager

end ShardSync.Recovery
