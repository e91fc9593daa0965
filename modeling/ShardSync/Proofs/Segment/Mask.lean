import Mathlib.Data.List.Perm.Basic
import ShardSync.Proofs.Segment.Sealing

/-!
# Masks

The mask of a sealed segment has an entry for each position. So only positions of the
segment are live, the number of its documents is the number of its live positions, and
it stays so when positions are deleted.
-/

set_option autoImplicit false

namespace ShardSync.Segment

/-- A mask has an entry for each position, so that none is looked up beyond its end. -/
def IsMasked (segment : Segment) : Prop :=
  ∀ mask ∈ segment.mask?, mask.length = segment.maxDoc

theorem lt_of_isLive {segment : Segment} (masked : segment.IsMasked) {position : Nat}
    (live : segment.isLive position = true) : position < segment.maxDoc := by
  unfold isLive at live
  split at live
  · exact of_decide_eq_true live
  · next mask known =>
      rw [← masked mask known]
      cases there : mask[position]? with
      | none =>
          rw [there] at live
          cases live
      | some bit => exact (List.getElem?_eq_some_iff.mp there).1

theorem numDocs_eq {segment : Segment} (masked : segment.IsMasked) :
    segment.numDocs = (List.range segment.maxDoc).countP segment.isLive := by
  cases known : segment.mask? with
  | none =>
      have all : (List.range segment.maxDoc).countP segment.isLive =
          (List.range segment.maxDoc).length := by
        refine List.countP_eq_length.mpr fun position member => ?_
        rw [isLive, known]
        exact decide_eq_true (List.mem_range.mp member)
      rw [all, List.length_range, numDocs, known, Option.elim_none]
  | some mask =>
      have listed : mask = (List.range segment.maxDoc).map segment.isLive := by
        refine List.ext_getElem? fun position => ?_
        rw [List.getElem?_map, ← masked mask known]
        by_cases inside : position < mask.length
        · have bit : segment.isLive position = mask[position]?.getD false := by
            rw [isLive, known]
          rw [List.getElem?_range inside, Option.map_some, bit, List.getElem?_eq_getElem inside,
            Option.getD_some]
        · rw [List.getElem?_eq_none (Nat.not_lt.mp inside),
            List.getElem?_eq_none (by rw [List.length_range]; exact Nat.not_lt.mp inside)]
          rfl
      rw [numDocs, known, Option.elim_some, listed, List.count, List.countP_map]
      exact List.countP_congr fun position _ => by simp

theorem isMasked_withSoftDeleted {segment : Segment} (masked : segment.IsMasked) (position : Nat)
    (generation : Generation) : (segment.withSoftDeleted position generation).IsMasked := by
  unfold withSoftDeleted
  split
  · intro mask same
    cases same
    rw [List.length_set]
    cases known : segment.mask? with
    | none => exact List.length_replicate
    | some before => exact masked before known
  · exact masked

theorem isMasked_build (builder : SegmentBuilder) (generation : Generation) :
    (builder.build generation).IsMasked := by
  intro mask known
  have known : builder.mask? = some mask := known
  rcases builder.mask?_cases with there | ⟨missing, _⟩
  · rw [there] at known
    cases known
    exact List.length_map ..
  · rw [missing] at known
    cases known

end ShardSync.Segment
