import Mathlib.Algebra.BigOperators.Group.Finset.Piecewise
import Mathlib.Algebra.GroupWithZero.Nat
import Mathlib.Algebra.Order.BigOperators.Group.Finset
import Mathlib.Algebra.Order.BigOperators.Group.List
import ShardSync.Proofs.Recovery.Assembly

/-!
# Slices of a file

A target tells slices of a file apart by where they begin: of those that begin at one
position it writes the first and no other, and it takes the file for complete when the
lengths of the written ones add up to that of the file. What this comes to can be said of
the slices alone.
-/

set_option autoImplicit false

namespace ShardSync.Recovery

/-- A run of octets of a file. -/
structure Slice where
  position : Nat
  length : Nat
deriving Repr, DecidableEq

namespace Slice

def Contains (slice : Slice) (index : Nat) : Prop :=
  slice.position ≤ index ∧ index < slice.position + slice.length

instance (slice : Slice) (index : Nat) : Decidable (slice.Contains index) :=
  inferInstanceAs (Decidable (_ ∧ _))

/-- Of the slices that begin at one position, the first. -/
def firsts : List Slice → List Slice
  | [] => []
  | slice :: slices => slice :: (firsts slices).filter (·.position ≠ slice.position)

/-- How many octets are counted as written. -/
def total (slices : List Slice) : Nat := ((firsts slices).map (·.length)).sum

/-- Whether a file of the given length is taken for complete. -/
def IsFull (length : Nat) (slices : List Slice) : Prop := slices ≠ [] ∧ total slices = length

instance (length : Nat) (slices : List Slice) : Decidable (IsFull length slices) :=
  inferInstanceAs (Decidable (_ ∧ _))

/-- There is a slice, and every octet of a file of the given length is in one. -/
def Cover (length : Nat) (slices : List Slice) : Prop :=
  slices ≠ [] ∧ ∀ index < length, ∃ slice ∈ slices, slice.Contains index

instance (length : Nat) (slices : List Slice) : Decidable (Cover length slices) :=
  inferInstanceAs (Decidable (_ ∧ _))

/-- The octets of the given slices of a source, with zeros in between. -/
def patch (source : Bytes) (slices : List Slice) : Bytes :=
  source.mapIdx fun index octet => if ∃ slice ∈ slices, slice.Contains index then octet else 0

/-- What a target has written when it has got these slices. -/
def written (source : Bytes) (slices : List Slice) : Bytes := patch source (firsts slices)

/-- When the lengths of the written slices add up to that of the file, what is written has
the checksum of the file. When the slices cover the file, the lengths have added up before,
and what was written then is the file. -/
def AddUp (source : Bytes) (slices : List Slice) : Prop :=
  ∀ earlier, earlier <+: slices →
    (IsFull source.length earlier → checksum (written source earlier) = checksum source) ∧
    (Cover source.length earlier →
      ∃ first, first <+: earlier ∧ IsFull source.length first ∧ written source first = source)

section

variable {source : Bytes} {slices more : List Slice} {slice other : Slice} {index length : Nat}

theorem firsts_concat (slices : List Slice) (slice : Slice) :
    firsts (slices ++ [slice]) =
      firsts slices ++
        if ∃ other ∈ slices, other.position = slice.position then [] else [slice] := by
  induction slices with
  | nil => simp [firsts]
  | cons first slices ih =>
      simp only [List.cons_append, firsts, ih, List.filter_append, List.exists_mem_cons_iff]
      by_cases again : ∃ other ∈ slices, other.position = slice.position
      · simp [again]
      · by_cases same : first.position = slice.position
        · simp [again, same]
        · have differ : slice.position ≠ first.position := Ne.symm same
          simp [again, same, differ]

theorem firsts_prefix (slices more : List Slice) : firsts slices <+: firsts (slices ++ more) := by
  induction more using List.reverseRecOn with
  | nil => simp
  | append_singleton more slice ih =>
      rw [← List.append_assoc, firsts_concat]
      exact ih.trans (List.prefix_append _ _)

theorem mem_of_mem_firsts (member : slice ∈ firsts slices) : slice ∈ slices := by
  induction slices with
  | nil => exact member
  | cons first slices ih =>
      rcases List.mem_cons.mp member with rfl | later
      · exact List.mem_cons_self
      · exact List.mem_cons_of_mem _ (ih (List.mem_filter.mp later).1)

/-- The written slices begin at different positions. -/
theorem pairwise_firsts (slices : List Slice) :
    (firsts slices).Pairwise fun first second => first.position ≠ second.position := by
  induction slices with
  | nil => exact .nil
  | cons slice slices ih =>
      refine .cons (fun other member => ?_) (ih.filter _)
      have differ := (List.mem_filter.mp member).2
      exact fun same => by simp [same] at differ

/-- Every position at which a slice begins is that of a written one. -/
theorem exists_mem_firsts (member : slice ∈ slices) :
    ∃ other ∈ firsts slices, other.position = slice.position := by
  induction slices with
  | nil => cases member
  | cons first slices ih =>
      by_cases same : first.position = slice.position
      · exact ⟨first, List.mem_cons_self, same⟩
      · rcases List.mem_cons.mp member with rfl | later
        · exact absurd rfl same
        · obtain ⟨other, found, equal⟩ := ih later
          refine ⟨other, List.mem_cons_of_mem _ (List.mem_filter.mpr ⟨found, ?_⟩), equal⟩
          simpa [equal] using Ne.symm same

theorem total_concat (slices : List Slice) (slice : Slice) :
    total (slices ++ [slice]) =
      total slices +
        if ∃ other ∈ slices, other.position = slice.position then 0 else slice.length := by
  rw [total, firsts_concat, List.map_append, List.sum_append, total]
  split <;> simp

/-- Slices that come after a file was full add nothing to it. -/
theorem written_append (full : IsFull length slices) (still : IsFull length (slices ++ more)) :
    written source (slices ++ more) = written source slices := by
  obtain ⟨extra, split⟩ := firsts_prefix slices more
  have sum : total slices + (extra.map (·.length)).sum = total (slices ++ more) := by
    rw [total, total, ← split, List.map_append, List.sum_append]
  have none : (extra.map (·.length)).sum = 0 := by
    have := full.2
    have := still.2
    omega
  have blank (added : Slice) (member : added ∈ extra) (index : Nat) : ¬ added.Contains index := by
    have zero : added.length = 0 :=
      Nat.eq_zero_of_le_zero (none ▸ List.le_sum_of_mem (List.mem_map_of_mem member))
    simp only [Contains]
    omega
  refine List.ext_getElem? fun index => ?_
  simp only [written, patch, List.getElem?_mapIdx, ← split, List.mem_append, or_and_right,
    exists_or]
  have outside : ¬ ∃ added ∈ extra, added.Contains index :=
    fun ⟨added, member, inside⟩ => blank added member index inside
  simp [outside]

@[simp] theorem length_patch (source : Bytes) (slices : List Slice) :
    (patch source slices).length = source.length := List.length_mapIdx

theorem written_nil (source : Bytes) : written source [] = List.replicate source.length 0 := by
  refine List.ext_getElem? fun index => ?_
  simp only [written, patch, firsts, List.getElem?_mapIdx, List.getElem?_replicate]
  by_cases inside : index < source.length <;> simp [inside]

/-- Writing a slice of the source. -/
theorem overwrite_patch (inside : slice.position + slice.length ≤ source.length) :
    (patch source slices).overwrite slice.position (source.slice slice.position slice.length) =
      patch source (slices ++ [slice]) := by
  have taken := Bytes.length_slice inside
  refine List.ext_getElem? fun index => ?_
  rw [Bytes.getElem?_overwrite (by rw [taken, length_patch]; exact inside), taken]
  simp only [patch, List.getElem?_mapIdx, List.mem_append, List.mem_singleton, or_and_right,
    exists_or, exists_eq_left]
  by_cases here : slice.Contains index
  · have offset : slice.position + (index - slice.position) = index := by
      have := here.1
      omega
    have within : index - slice.position < slice.length := by
      have := here.2
      omega
    rw [if_pos (show _ ∧ _ from here), Bytes.getElem?_slice, if_pos within, offset]
    simp [here]
  · have outside : ¬ (slice.position ≤ index ∧ index < slice.position + slice.length) := here
    simp [here, outside]

/-- Slices that hold every octet give the source. -/
theorem patch_eq_self (all : ∀ index < source.length, ∃ slice ∈ slices, slice.Contains index) :
    patch source slices = source := by
  refine List.ext_getElem? fun index => ?_
  rw [patch, List.getElem?_mapIdx]
  by_cases inside : index < source.length
  · simp [all index inside]
  · simp [Nat.le_of_not_lt inside]

/-- An octet counts once for every slice that it is in. -/
theorem sum_length_eq (within : ∀ slice ∈ slices, slice.position + slice.length ≤ length) :
    (slices.map (·.length)).sum =
      ∑ index ∈ Finset.range length, slices.countP fun slice => slice.Contains index := by
  induction slices with
  | nil => simp
  | cons slice slices ih =>
      obtain ⟨here, later⟩ := List.forall_mem_cons.mp within
      have own : (Finset.range length).filter slice.Contains =
          Finset.Ico slice.position (slice.position + slice.length) := by
        ext index
        simp only [Finset.mem_filter, Finset.mem_range, Finset.mem_Ico, Contains]
        omega
      have count : ∑ index ∈ Finset.range length, (if slice.Contains index then 1 else 0) =
          slice.length := by
        rw [← Finset.card_filter, own, Nat.card_Ico, Nat.add_sub_cancel_left]
      simp only [List.map_cons, List.sum_cons, List.countP_cons, decide_eq_true_eq,
        Finset.sum_add_distrib, ih later, count, Nat.add_comm]

/-- Slices that begin at one position are equally long, and others have no octet in common. -/
def Apart (slices : List Slice) : Prop :=
  ∀ first ∈ slices, ∀ second ∈ slices,
    if first.position = second.position then first.length = second.length
    else ∀ index, first.Contains index → ¬ second.Contains index

theorem countP_firsts_le_one (apart : Apart slices) (index : Nat) :
    (firsts slices).countP (fun slice => slice.Contains index) ≤ 1 := by
  have differ := (pairwise_firsts slices).filter fun slice => decide (slice.Contains index)
  rw [List.countP_eq_length_filter]
  cases held : (firsts slices).filter fun slice => decide (slice.Contains index) with
  | nil => exact Nat.zero_le 1
  | cons first others =>
      cases others with
      | nil => exact Nat.le_refl 1
      | cons second others =>
          rw [held] at differ
          have mem {slice : Slice} (member : slice ∈ first :: second :: others) :
              slice ∈ slices ∧ slice.Contains index := by
            rw [← held, List.mem_filter, decide_eq_true_eq] at member
            exact ⟨mem_of_mem_firsts member.1, member.2⟩
          obtain ⟨here, inside⟩ := mem List.mem_cons_self
          obtain ⟨there, insideToo⟩ := mem (List.mem_cons_of_mem _ List.mem_cons_self)
          have none := apart first here second there
          rw [if_neg (List.rel_of_pairwise_cons differ List.mem_cons_self)] at none
          exact absurd insideToo (none index inside)

/-- Slices that are the same or apart add up to the file exactly when they cover it. -/
theorem isFull_iff_cover (apart : Apart slices)
    (within : ∀ slice ∈ slices, slice.position + slice.length ≤ length) :
    IsFull length slices ↔ Cover length slices := by
  have sum := sum_length_eq fun slice member => within slice (mem_of_mem_firsts member)
  have once := countP_firsts_le_one apart
  have reached (index : Nat) : 0 < (firsts slices).countP (fun slice => slice.Contains index) ↔
      ∃ slice ∈ slices, slice.Contains index := by
    simp only [List.countP_pos_iff, decide_eq_true_eq]
    constructor
    · rintro ⟨slice, member, inside⟩
      exact ⟨slice, mem_of_mem_firsts member, inside⟩
    · rintro ⟨slice, member, inside⟩
      obtain ⟨first, written, same⟩ := exists_mem_firsts member
      have alike := apart first (mem_of_mem_firsts written) slice member
      rw [if_pos same] at alike
      refine ⟨first, written, ?_⟩
      rwa [Contains, same, alike]
  refine and_congr_right fun _ => ?_
  simp only [← reached]
  rw [total, sum]
  constructor
  · intro full index inside
    by_contra missing
    have fewer : ∑ index ∈ Finset.range length,
        (firsts slices).countP (fun slice => slice.Contains index) <
          ∑ index ∈ Finset.range length, 1 :=
      Finset.sum_lt_sum (fun index _ => once index)
        ⟨index, Finset.mem_range.mpr inside, by omega⟩
    simp [full] at fewer
  · intro all
    have exact : ∀ index ∈ Finset.range length,
        (firsts slices).countP (fun slice => slice.Contains index) = 1 := fun index inside =>
      Nat.le_antisymm (once index) (all index (Finset.mem_range.mp inside))
    simp [Finset.sum_congr rfl exact]

/-- A file cut into slices is complete when all of them are there, in whatever order they
come and however often. -/
theorem addUp_of_apart (apart : Apart slices)
    (within : ∀ slice ∈ slices, slice.position + slice.length ≤ source.length) :
    AddUp source slices := by
  intro earlier before
  have apart : Apart earlier := fun first here second there =>
    apart first (before.subset here) second (before.subset there)
  have full := isFull_iff_cover apart fun slice member => within slice (before.subset member)
  have whole (complete : IsFull source.length earlier) : written source earlier = source := by
    refine patch_eq_self fun index inside => ?_
    obtain ⟨slice, member, holds⟩ := (full.mp complete).2 index inside
    obtain ⟨first, found, same⟩ := exists_mem_firsts member
    have alike := apart first (mem_of_mem_firsts found) slice member
    rw [if_pos same] at alike
    refine ⟨first, found, ?_⟩
    rwa [Contains, same, alike]
  exact ⟨fun complete => by rw [whole complete], fun covered =>
    ⟨earlier, List.prefix_refl _, full.mpr covered, whole (full.mpr covered)⟩⟩

end

end Slice

end ShardSync.Recovery
