import Std.Data.ExtTreeSet

/-!
# Local checkpoints

A tracker knows which sequence numbers have been processed. Its checkpoint is
the end of the run without gaps that begins at zero; the numbers above the
checkpoint wait until the gap before them is filled.
-/

set_option autoImplicit false

namespace ShardSync

/-- The processed sequence numbers. -/
structure Tracker where
  /-- All numbers from zero to here have been processed. -/
  checkpoint : Int := -1
  /-- The highest number processed. -/
  maxSeqNo : Int := -1
  /-- The processed numbers above the checkpoint. -/
  waiting : Std.ExtTreeSet Int := ∅

namespace Tracker

/-- Moves the checkpoint past the waiting numbers that continue its run. -/
def advance (checkpoint : Int) (waiting : Std.ExtTreeSet Int) : Int × Std.ExtTreeSet Int :=
  if checkpoint + 1 ∈ waiting then
    advance (checkpoint + 1) (waiting.erase (checkpoint + 1))
  else (checkpoint, waiting)
termination_by waiting.size
decreasing_by
  rename_i member
  have nonempty : waiting.size ≠ 0 := fun none => by
    rw [← Std.ExtTreeSet.eq_empty_iff_size_eq_zero] at none
    simp [none] at member
  rw [Std.ExtTreeSet.size_erase, if_pos (show waiting.contains (checkpoint + 1) = true from member)]
  omega

def mark (tracker : Tracker) (seqNo : Int) : Tracker :=
  let maxSeqNo := max tracker.maxSeqNo seqNo
  if seqNo ≤ tracker.checkpoint then { tracker with maxSeqNo }
  else
    let (checkpoint, waiting) := advance tracker.checkpoint (tracker.waiting.insert seqNo)
    { checkpoint, maxSeqNo, waiting }

def hasProcessed (tracker : Tracker) (seqNo : Int) : Bool :=
  0 ≤ seqNo && (seqNo ≤ tracker.checkpoint || tracker.waiting.contains seqNo)

end Tracker

end ShardSync
