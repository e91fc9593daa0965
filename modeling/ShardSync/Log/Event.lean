import ShardSync.Log.Severity

/-!
# Events

What can happen in the course of a recovery. Each event is logged under its
name and at a severity of its own.
-/

set_option autoImplicit false

namespace ShardSync.Log

inductive Event where
  | recoveryQueued
  | recoveryBegin
  | recoveryComplete
  | recoveryFailed
  | recoveryCancelled
  | recoverySuperseded
  | filesBegin
  | fileVerified
  | chunkMismatch
  | filesComplete
  | opsBegin
  | opsBatch
  | opsComplete
  | finalizeBegin
  | finalizeComplete
  | inconsistentSegment
  | configLoaded
deriving Repr, DecidableEq

namespace Event

def all : List Event :=
  [recoveryQueued, recoveryBegin, recoveryComplete, recoveryFailed, recoveryCancelled,
    recoverySuperseded, filesBegin, fileVerified, chunkMismatch, filesComplete, opsBegin,
    opsBatch, opsComplete, finalizeBegin, finalizeComplete, inconsistentSegment, configLoaded]

def name : Event → String
  | .recoveryQueued => "RECOVERY_QUEUED"
  | .recoveryBegin => "RECOVERY_BEGIN"
  | .recoveryComplete => "RECOVERY_COMPLETE"
  | .recoveryFailed => "RECOVERY_FAILED"
  | .recoveryCancelled => "RECOVERY_CANCELLED"
  | .recoverySuperseded => "RECOVERY_SUPERSEDED"
  | .filesBegin => "RECOVERY_FILES_BEGIN"
  | .fileVerified => "RECOVERY_FILE_VERIFIED"
  | .chunkMismatch => "RECOVERY_CHUNK_MISMATCH"
  | .filesComplete => "RECOVERY_FILES_COMPLETE"
  | .opsBegin => "RECOVERY_OPS_BEGIN"
  | .opsBatch => "RECOVERY_OPS_BATCH"
  | .opsComplete => "RECOVERY_OPS_COMPLETE"
  | .finalizeBegin => "RECOVERY_FINALIZE_BEGIN"
  | .finalizeComplete => "RECOVERY_FINALIZE_COMPLETE"
  | .inconsistentSegment => "SEGMENT_INCONSISTENT"
  | .configLoaded => "CONFIG_LOADED"

def severity : Event → Severity
  | .inconsistentSegment => .fatal
  | .recoveryFailed | .chunkMismatch => .error
  | .recoveryCancelled | .recoverySuperseded => .warn
  | .fileVerified | .opsBatch => .trace
  | _ => .info

def isFatal (event : Event) : Bool :=
  event.severity == .fatal

end Event

end ShardSync.Log
