import ShardSync.Engine.Error
import ShardSync.Log.Severity
import ShardSync.Recovery.Phase
import ShardSync.Shard
import ShardSync.Store.Error
import ShardSync.Translog.Error

/-!
# Failures of a recovery

A failure has a kind, which is what travels to the other node, and a report.
Where it arose is added on the way out: the recovery, the shard and the phase.
No failure is tried again within a recovery.
-/

set_option autoImplicit false

namespace ShardSync.Recovery

inductive ErrorKind where
  | transport
  | timeout
  | checksumMismatch
  | inconsistentSegment
  | sequenceGap
  | protocolViolation
  | storage
  | cancelled
deriving Repr, DecidableEq

namespace ErrorKind

def all : List ErrorKind :=
  [transport, timeout, checksumMismatch, inconsistentSegment, sequenceGap, protocolViolation,
    storage, cancelled]

def code : ErrorKind → String
  | .transport => "RECOVERY_TRANSPORT"
  | .timeout => "RECOVERY_TIMEOUT"
  | .checksumMismatch => "RECOVERY_CHECKSUM_MISMATCH"
  | .inconsistentSegment => "RECOVERY_INCONSISTENT_SEGMENT"
  | .sequenceGap => "RECOVERY_SEQUENCE_GAP"
  | .protocolViolation => "RECOVERY_PROTOCOL_VIOLATION"
  | .storage => "RECOVERY_STORAGE"
  | .cancelled => "RECOVERY_CANCELLED"

def ofCode? (code : String) : Option ErrorKind :=
  all.find? (·.code == code)

def severity : ErrorKind → Log.Severity
  | .inconsistentSegment => .fatal
  | .cancelled => .warn
  | _ => .error

/-- Whether an operator has to look at the shard before it is used again. -/
def isFatal (kind : ErrorKind) : Bool :=
  kind.severity == .fatal

end ErrorKind

/-- A failure and, as far as known, where it arose. -/
structure Error where
  kind : ErrorKind
  detail : String
  recovery? : Option Int64 := none
  shard? : Option ShardId := none
  phase? : Option Phase := none
deriving Repr, DecidableEq

namespace Error

def transport (detail : String) : Error := { kind := .transport, detail }

/-- No reply to the named request came within the given time. -/
def timeout (action : String) (milliseconds : Nat) : Error :=
  { kind := .timeout, detail := s!"{action} timed out after {milliseconds}ms" }

def checksumMismatch (detail : String) : Error := { kind := .checksumMismatch, detail }

def inconsistentSegment (detail : String) : Error := { kind := .inconsistentSegment, detail }

def sequenceGap (expected actual : Int) : Error :=
  { kind := .sequenceGap, detail := s!"expected seq_no [{expected}] but got [{actual}]" }

def protocolViolation (detail : String) : Error := { kind := .protocolViolation, detail }

def storage (detail : String) : Error := { kind := .storage, detail }

def cancelled (reason : String) : Error := { kind := .cancelled, detail := reason }

/-- Adds the recovery and its shard, where they are not known yet. -/
def inContext (error : Error) (recovery : Int64) (shard : ShardId) : Error :=
  { error with
    recovery? := error.recovery? <|> some recovery
    shard? := error.shard? <|> some shard }

/-- Adds the phase, unless one is known. -/
def inPhase (error : Error) (phase : Phase) : Error :=
  { error with phase? := error.phase? <|> some phase }

def isFatal (error : Error) : Bool := error.kind.isFatal

def isCancellation (error : Error) : Bool := error.kind == .cancelled

/-- The report: severity, code, what is known of the place, and the detail. -/
def message (error : Error) : String :=
  s!"[{error.kind.severity.name}] {error.kind.code}" ++
    (error.recovery?.elim "" fun recovery => s!" recovery [{recovery}]") ++
    (error.shard?.elim "" fun shard => s!" shard {shard.label}") ++
    (error.phase?.elim "" fun phase => s!" phase [{phase.name}]") ++
    s!": {error.detail}"

/-- A wrong checksum keeps its kind; all else is a failure of the store. -/
def ofStore (cause : StoreError) : Error :=
  match cause with
  | .checksumMismatch _ _ _ => checksumMismatch cause.message
  | _ => storage cause.message

def ofTranslog (cause : TranslogError) : Error := storage cause.message

def ofSegment (cause : SegmentError) : Error :=
  if cause.isFatal then inconsistentSegment cause.message else storage cause.message

def ofEngine (cause : EngineError) : Error :=
  match cause with
  | .unresolved segment => ofSegment segment
  | _ => storage cause.message

def ofDecoding (cause : Wire.DecodeError) : Error :=
  transport s!"malformed message: {cause.message}"

end Error

end ShardSync.Recovery
