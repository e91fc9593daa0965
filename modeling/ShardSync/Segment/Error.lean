import ShardSync.Wire.Error

/-!
# Failures of identity resolution

All of them but a failed decoding point at a segment whose contents
contradict themselves, and cannot be mended by trying again.
-/

set_option autoImplicit false

namespace ShardSync

/-- Every segment has a generation of its own; newer segments have higher ones. -/
abbrev Generation := UInt64

def Generation.label (generation : Generation) : String := s!"gen_{generation}"

inductive SegmentError where
  | inconsistent (generation : Generation) (softDeletes tombstones : Bool)
  | missingVersions (generation : Generation)
  | missingValue (generation : Generation) (position : Nat) (field : String)
  | corrupt (detail : String)
  | undecodable (cause : Wire.DecodeError)
deriving Repr, DecidableEq

namespace SegmentError

def message : SegmentError → String
  | .inconsistent generation softDeletes tombstones =>
      s!"segment {generation.label} has no identity index but is not a no-op segment; " ++
        s!"soft_deletes present [{softDeletes}], tombstone present [{tombstones}]"
  | .missingVersions generation =>
      s!"segment {generation.label} is missing the version column"
  | .missingValue generation position field =>
      s!"document [{position}] in segment {generation.label} has no value for [{field}]"
  | .corrupt detail => s!"corrupt segment file: {detail}"
  | .undecodable cause => s!"segment decode failed: {cause.message}"

def isFatal : SegmentError → Bool
  | .undecodable _ => false
  | _ => true

end SegmentError

end ShardSync
