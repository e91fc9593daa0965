import ShardSync.Engine.Basic
import ShardSync.Log.Journal
import ShardSync.Recovery.Message
import ShardSync.Recovery.Progress
import ShardSync.Recovery.Segments

/-!
# The receiving side

A target receives one recovery. Files are written under temporary names and
take their live names only at the very end, when all operations have been
replayed. A failure at any point removes the temporary files and gives the
engine its former segments back.

A target works on a copy of the shard that outlives it, and writes to the
journal of its node. What an unfinished step has changed remains changed; it
is the handling of the failure that cleans up.
-/

set_option autoImplicit false

namespace ShardSync.Recovery

/-- A file that has been announced and is being received. -/
structure Incoming where
  tempName : String
  length : Nat
  /-- The metadata that came with the first chunk. -/
  file? : Option FileMetadata := none
  /-- Where the chunks that were written begin. -/
  positions : Std.ExtTreeSet Nat := ∅
  /-- The sum of the lengths of the chunks that were written. -/
  received : Nat := 0
  /-- Whether the whole file has been found to have its announced checksum. -/
  isVerified : Bool := false

structure Target where
  recovery : Int64
  shard : ShardId
  progress : Progress := {}
  resolver : Resolver := {}
  /-- The files to receive, by their live names. -/
  incoming : Std.ExtTreeMap String Incoming := ∅
  /-- The files that the shard holds already. -/
  existing : List String := []
  totalOps : Nat := 0
  /-- The sequence number of the next operation. It runs over behind the last one. -/
  nextSeqNo : Int64 := 0
  opsRecovered : Nat := 0
  globalCheckpoint? : Option Int64 := none
  /-- Whether the engine works on segments that are not live yet. -/
  hasStaged : Bool := false

namespace Target

/-- All operations up to here have been replayed. -/
def localCheckpoint (target : Target) : Int64 := target.nextSeqNo - 1

/-- What every log line about the recovery says. -/
def logFields (target : Target) : List (String × String) :=
  [("recovery_id", toString target.recovery), ("shard", target.shard.label)]

end Target

/-- A shard on a node: its files, and the engine that answers searches. -/
structure ShardCopy where
  store : Store := {}
  engine : Engine := {}

/-- A target at work on a copy of its shard. -/
structure Receiver where
  target : Target
  copy : ShardCopy
  journal : Log.Journal := {}

/-- A step of a target. It may fail, and what it has changed until then stays. -/
abbrev Receiving (α : Type) := ExceptT Error (StateM Receiver) α

namespace Receiving

variable {α : Type}

/-- The outcome of a step, and the receiver after it. -/
def start (step : Receiving α) (receiver : Receiver) : Except Error α × Receiver :=
  step.run.run receiver

def check (outcome : Except Error α) : Receiving α := ExceptT.mk (pure outcome)

def modifyTarget (change : Target → Target) : Receiving Unit :=
  modify fun receiver => { receiver with target := change receiver.target }

def modifyProgress (change : Progress → Progress) : Receiving Unit :=
  modifyTarget fun target => { target with progress := change target.progress }

/-- Moves on to the given phase, if that is allowed. -/
def transition (phase : Phase) : Receiving Unit := do
  let progress ← check ((← get).target.progress.transition phase)
  modifyProgress fun _ => progress

def setStore (store : Store) : Receiving Unit :=
  modify fun receiver => { receiver with copy.store := store }

def setEngine (engine : Engine) : Receiving Unit :=
  modify fun receiver => { receiver with copy.engine := engine }

/-- An operation on the store that changes nothing if it fails. -/
def onStore (operation : Store → Except StoreError Store) : Receiving Unit := do
  setStore (← check ((operation (← get).copy.store).mapError Error.ofStore))

/-- An operation on the store that may have changed it before it fails. -/
def throughStore (operation : Store → Except StoreError α × Store) : Receiving α := do
  let (outcome, store) := operation (← get).copy.store
  setStore store
  check (outcome.mapError Error.ofStore)

def count (change : Log.Metrics → Log.Metrics) : Receiving Unit :=
  modify fun receiver => { receiver with journal := receiver.journal.count change }

def logLine (line : Log.Line) : Receiving Unit :=
  modify fun receiver => { receiver with journal := receiver.journal.log line }

def log (event : Log.Event) (fields : List (String × String)) : Receiving Unit := do
  logLine (.ofEvent event ((← get).target.logFields ++ fields))

end Receiving

end ShardSync.Recovery
