import ShardSync.Wire.Error

/-!
# Failures of the operation log
-/

set_option autoImplicit false

namespace ShardSync

inductive TranslogError where
  | corruption (offset : Nat) (reason : String)
  | inaccessible (context detail : String)
  | duplicate (seqNo : Int64)
  | invalidSeqNo (seqNo : Int64)
  | undecodable (cause : Wire.DecodeError)
deriving Repr, DecidableEq

namespace TranslogError

def message : TranslogError → String
  | .corruption offset reason => s!"Translog corruption at offset {offset}: {reason}"
  | .inaccessible context detail => s!"Translog I/O error during {context}: {detail}"
  | .duplicate seqNo =>
      s!"Operation {seqNo} conflicts with an existing entry of the same sequence number"
  | .invalidSeqNo seqNo => s!"Invalid sequence number {seqNo}"
  | .undecodable cause => s!"Operation decode failed: {cause.message}"

/-- Whether the failure needs an operator: a corrupt log stays corrupt. -/
def isFatal : TranslogError → Bool
  | .corruption _ _ => true
  | _ => false

end TranslogError

end ShardSync
