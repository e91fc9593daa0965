import ShardSync.Segment.Error

/-!
# Failures of the engine
-/

set_option autoImplicit false

namespace ShardSync

inductive EngineError where
  | notPrepared
  | invalidOperation (seqNo : Int64) (reason : String)
  | generationsExhausted (last : Generation)
  | unresolved (cause : SegmentError)
deriving Repr, DecidableEq

namespace EngineError

def message : EngineError → String
  | .notPrepared => "Engine is not prepared for operations"
  | .invalidOperation seqNo reason => s!"Invalid operation {seqNo}: {reason}"
  | .generationsExhausted last => s!"No segment generation left after {last.label}"
  | .unresolved cause => s!"Identity resolution failed: {cause.message}"

def isFatal : EngineError → Bool
  | .unresolved cause => cause.isFatal
  | _ => false

end EngineError

end ShardSync
