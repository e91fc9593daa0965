import Mathlib.Data.List.Dedup
import ShardSync.Proofs.Segment.Mask
import ShardSync.Proofs.Segment.Rows

/-!
# Deleting and sealing

It makes no difference whether documents are deleted before they are sealed or after: a
sealed segment from which positions are deleted is the segment that the documents without
them are sealed into. So neither the order of the positions counts nor how often one is
deleted.
-/

set_option autoImplicit false

namespace ShardSync

namespace SegmentBuilder

variable {builder : SegmentBuilder} {positions others : List Nat}

/-- Deletes documents one after the other. -/
def softDeleteAll (builder : SegmentBuilder) (positions : List Nat) : SegmentBuilder :=
  positions.foldl softDelete builder

/-- A document that is deleted is marked and no longer live, the others stay as they are. -/
theorem softDeleteAll_getElem? (builder : SegmentBuilder) (positions : List Nat) (other : Nat) :
    (builder.softDeleteAll positions).entries[other]? =
      builder.entries[other]?.map fun entry =>
        if other ∈ positions then ⟨{ entry.document with softDeleted := true }, false⟩
        else entry := by
  induction positions generalizing builder with
  | nil => simp [softDeleteAll]
  | cons position positions ih =>
      rw [softDeleteAll, List.foldl_cons, ← softDeleteAll, ih, softDelete_getElem?,
        Option.map_map]
      refine congrArg (Option.map · _) (funext fun entry => ?_)
      by_cases here : other = position
      · simp [here]
      · simp [here, Ne.symm here]

theorem size_softDeleteAll (builder : SegmentBuilder) (positions : List Nat) :
    (builder.softDeleteAll positions).size = builder.size := by
  induction positions generalizing builder with
  | nil => rfl
  | cons position positions ih => exact (ih _).trans (List.length_modify ..)

/-- Only which of the documents are deleted counts. -/
theorem softDeleteAll_congr
    (same : ∀ position < builder.size, position ∈ positions ↔ position ∈ others) :
    builder.softDeleteAll positions = builder.softDeleteAll others := by
  have entries : (builder.softDeleteAll positions).entries =
      (builder.softDeleteAll others).entries := by
    refine List.ext_getElem? fun position => ?_
    rw [softDeleteAll_getElem?, softDeleteAll_getElem?]
    cases there : builder.entries[position]? with
    | none => rfl
    | some entry =>
        have inside : position < builder.size := (List.getElem?_eq_some_iff.mp there).1
        simp only [Option.map_some, same position inside]
  exact congrArg SegmentBuilder.mk entries

/-- Deleting a position of a sealed segment is deleting the document before sealing, also
where there is none. -/
theorem build_withSoftDeleted (builder : SegmentBuilder) (position : Nat)
    (generation next : Generation) :
    (builder.build generation).withSoftDeleted position next =
      (builder.softDelete position).build next := by
  by_cases inside : position < builder.size
  · exact withSoftDeleted_build inside generation next
  · have outside : ¬ position < (builder.build generation).maxDoc := inside
    have unchanged : builder.softDelete position = builder :=
      congrArg SegmentBuilder.mk (List.modify_eq_self (Nat.not_lt.mp inside))
    rw [Segment.withSoftDeleted, if_neg outside, unchanged]
    rfl

theorem isLive_softDeleteAll (builder : SegmentBuilder) (positions : List Nat)
    (generation next : Generation) (position : Nat) :
    ((builder.softDeleteAll positions).build next).isLive position =
      ((builder.build generation).isLive position && !positions.contains position) := by
  rw [isLive_build, isLive_build, softDeleteAll_getElem?]
  cases builder.entries[position]? with
  | none => rfl
  | some entry => by_cases listed : position ∈ positions <;> simp [listed]

end SegmentBuilder

namespace Segment

/-- Deletes positions one after the other, each time under a new generation. -/
def withAllSoftDeleted (segment : Segment) (deletes : List (Nat × Generation)) : Segment :=
  deletes.foldl (fun segment delete => segment.withSoftDeleted delete.1 delete.2) segment

/-- The generation that is left after the given deletes. -/
def lastGeneration (generation : Generation) (deletes : List (Nat × Generation)) : Generation :=
  (deletes.map (·.2)).getLast?.getD generation

variable {builder : SegmentBuilder}

theorem withAllSoftDeleted_build (builder : SegmentBuilder) (generation : Generation)
    (deletes : List (Nat × Generation)) :
    (builder.build generation).withAllSoftDeleted deletes =
      (builder.softDeleteAll (deletes.map (·.1))).build (lastGeneration generation deletes) := by
  induction deletes generalizing builder generation with
  | nil => rfl
  | cons delete deletes ih =>
      have last : lastGeneration generation (delete :: deletes) =
          lastGeneration delete.2 deletes := by
        rw [lastGeneration, List.map_cons, List.getLast?_cons]
        rfl
      rw [withAllSoftDeleted, List.foldl_cons, SegmentBuilder.build_withSoftDeleted,
        ← withAllSoftDeleted, ih, last]
      rfl

/-- A live position is deleted or stays live, and the deleted ones are those on the list. -/
theorem countP_isLive_eq {segment : Segment} (masked : segment.IsMasked) (positions : List Nat) :
    (List.range segment.maxDoc).countP segment.isLive =
      (List.range segment.maxDoc).countP
          (fun position => segment.isLive position && !positions.contains position) +
        positions.dedup.countP segment.isLive := by
  have deleted : ((List.range segment.maxDoc).filter
      (fun position => segment.isLive position && positions.contains position)).Perm
        (positions.dedup.filter segment.isLive) := by
    refine (List.perm_ext_iff_of_nodup (List.nodup_range.filter _)
      ((List.nodup_dedup _).filter _)).mpr fun position => ?_
    simp only [List.mem_filter, List.mem_range, Bool.and_eq_true, List.contains_iff_mem,
      List.mem_dedup]
    constructor
    · rintro ⟨_, live, listed⟩
      exact ⟨listed, live⟩
    · rintro ⟨listed, live⟩
      exact ⟨lt_of_isLive masked live, live, listed⟩
  rw [List.countP_eq_countP_filter_add _ _ (positions.contains ·), List.countP_filter,
    List.countP_filter, Nat.add_comm, List.countP_eq_length_filter (l := positions.dedup),
    ← deleted.length_eq, ← List.countP_eq_length_filter]

/-- Each live document that is deleted is counted once, however often it is on the list. -/
theorem numDocs_softDeleteAll (builder : SegmentBuilder) (positions : List Nat)
    (generation next : Generation) :
    ((builder.softDeleteAll positions).build next).numDocs +
        positions.dedup.countP (builder.build generation).isLive =
      (builder.build generation).numDocs := by
  have size : ((builder.softDeleteAll positions).build next).maxDoc =
      (builder.build generation).maxDoc := SegmentBuilder.size_softDeleteAll builder positions
  have live : ((builder.softDeleteAll positions).build next).isLive = fun position =>
      (builder.build generation).isLive position && !positions.contains position :=
    funext (SegmentBuilder.isLive_softDeleteAll builder positions generation next)
  have left : ((builder.softDeleteAll positions).build next).numDocs =
      (List.range (builder.build generation).maxDoc).countP fun position =>
        (builder.build generation).isLive position && !positions.contains position := by
    rw [numDocs_eq (isMasked_build _ _), size, live]
  rw [left, numDocs_eq (isMasked_build builder generation)]
  exact (countP_isLive_eq (isMasked_build _ _) positions).symm

/-- Whatever positions are deleted from a sealed segment, existing or not, the result is what
the documents are sealed into if they are deleted before, under the last generation. Only the
set of the positions counts, and each live one of them takes one document away. -/
theorem deletes_commute (builder : SegmentBuilder) (generation : Generation)
    (deletes : List (Nat × Generation)) :
    (builder.build generation).withAllSoftDeleted deletes =
        (builder.softDeleteAll (deletes.map (·.1))).build (lastGeneration generation deletes) ∧
      (∀ others : List (Nat × Generation),
        (∀ position < builder.size,
          position ∈ others.map (·.1) ↔ position ∈ deletes.map (·.1)) →
        lastGeneration generation others = lastGeneration generation deletes →
        (builder.build generation).withAllSoftDeleted others =
          (builder.build generation).withAllSoftDeleted deletes) ∧
      ((builder.build generation).withAllSoftDeleted deletes).numDocs +
          (deletes.map (·.1)).dedup.countP (builder.build generation).isLive =
        (builder.build generation).numDocs := by
  refine ⟨withAllSoftDeleted_build builder generation deletes, fun others same last => ?_, ?_⟩
  · rw [withAllSoftDeleted_build, withAllSoftDeleted_build, last,
      SegmentBuilder.softDeleteAll_congr same]
  · rw [withAllSoftDeleted_build]
    exact numDocs_softDeleteAll builder _ generation _

end Segment

end ShardSync
