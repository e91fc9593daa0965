import Mathlib.Data.List.Induction
import ShardSync.Proofs.Engine.Tracker

/-!
# Trackers and their marks

A tracker is what the set of numbers that it has been told makes it: neither their order nor
their repetition can be seen in it. The loop that moves its checkpoint ends, since each turn
takes one of the waiting numbers away.
-/

set_option autoImplicit false

namespace ShardSync.Tracker

/-- A new tracker that has been told the given numbers, one after the other. -/
def ofMarks (marks : List Int) : Tracker := marks.foldl mark {}

/-- What a tracker is, in terms of the numbers it has been told. -/
structure Reflects (tracker : Tracker) (marks : List Int) : Prop where
  least : -1 ≤ tracker.checkpoint
  /-- All numbers from zero to the checkpoint have been told. -/
  run : ∀ number, 0 ≤ number → number ≤ tracker.checkpoint → number ∈ marks
  /-- The checkpoint is the greatest number of which this holds. -/
  greatest : ∀ last, (∀ number, 0 ≤ number → number ≤ last → number ∈ marks) →
    last ≤ tracker.checkpoint
  waiting : ∀ number, number ∈ tracker.waiting ↔ number ∈ marks ∧ tracker.checkpoint < number
  processed : ∀ number, 0 ≤ number → (tracker.hasProcessed number = true ↔ number ∈ marks)
  /-- The highest number is the maximum of minus one and all numbers told. -/
  floor : -1 ≤ tracker.maxSeqNo
  bound : ∀ mark ∈ marks, mark ≤ tracker.maxSeqNo
  attained : tracker.maxSeqNo = -1 ∨ tracker.maxSeqNo ∈ marks
  /-- Below a limit of all numbers told, the number that is looked for next stays within it. -/
  next : ∀ limit, 0 ≤ limit → (∀ mark ∈ marks, mark < limit) → tracker.checkpoint + 1 ≤ limit

/-- The turns of the loop that moves the checkpoint, up to where it stops. -/
inductive Drains : Nat → Int × Std.ExtTreeSet Int → Int × Std.ExtTreeSet Int → Prop where
  | stop {checkpoint : Int} {waiting : Std.ExtTreeSet Int} (gap : checkpoint + 1 ∉ waiting) :
      Drains 0 (checkpoint, waiting) (checkpoint, waiting)
  | turn {turns : Nat} {checkpoint : Int} {waiting : Std.ExtTreeSet Int}
      {final : Int × Std.ExtTreeSet Int} (continued : checkpoint + 1 ∈ waiting)
      (rest : Drains turns (checkpoint + 1, waiting.erase (checkpoint + 1)) final) :
      Drains (turns + 1) (checkpoint, waiting) final

theorem size_erase_add_one {waiting : Std.ExtTreeSet Int} {number : Int}
    (member : number ∈ waiting) : (waiting.erase number).size + 1 = waiting.size := by
  have held : waiting.contains number = true := member
  have nonempty : waiting.size ≠ 0 := fun none => by
    rw [← Std.ExtTreeSet.eq_empty_iff_size_eq_zero] at none
    simp [none] at member
  rw [Std.ExtTreeSet.size_erase, if_pos held]
  omega

/-- The loop ends after as many turns as the checkpoint moves, and there are no more of them
than numbers wait. -/
theorem drains_advance (checkpoint : Int) (waiting : Std.ExtTreeSet Int) :
    ∃ turns ≤ waiting.size, (advance checkpoint waiting).1 = checkpoint + turns ∧
      Drains turns (checkpoint, waiting) (advance checkpoint waiting) := by
  fun_induction advance checkpoint waiting with
  | case1 checkpoint waiting continued ih =>
      obtain ⟨turns, few, moved, drains⟩ := ih
      have smaller := size_erase_add_one continued
      exact ⟨turns + 1, by omega, by omega, .turn continued drains⟩
  | case2 checkpoint waiting gap => exact ⟨0, Nat.zero_le _, by simp, .stop gap⟩

theorem maxSeqNo_mark (tracker : Tracker) (seqNo : Int) :
    (tracker.mark seqNo).maxSeqNo = max tracker.maxSeqNo seqNo := by
  unfold mark
  dsimp only
  split <;> rfl

theorem ofMarks_concat (marks : List Int) (seqNo : Int) :
    ofMarks (marks ++ [seqNo]) = (ofMarks marks).mark seqNo := by
  rw [ofMarks, List.foldl_append]
  rfl

theorem processed_ofMarks (marks : List Int) :
    (ofMarks marks).Sound ∧ ∀ number,
      (ofMarks marks).hasProcessed number = true ↔ number ∈ marks ∧ 0 ≤ number := by
  obtain ⟨sound, processed⟩ := foldl_mark_spec sound_empty marks
  refine ⟨sound, fun number => (processed number).trans (or_iff_right fun early => ?_)⟩
  obtain ⟨positive, below | waiting⟩ := hasProcessed_iff.mp early
  · exact absurd (Int.le_trans positive below) (by decide)
  · exact Std.ExtTreeSet.not_mem_empty waiting

theorem maxSeqNo_ofMarks (marks : List Int) :
    -1 ≤ (ofMarks marks).maxSeqNo ∧ (∀ mark ∈ marks, mark ≤ (ofMarks marks).maxSeqNo) ∧
      ((ofMarks marks).maxSeqNo = -1 ∨ (ofMarks marks).maxSeqNo ∈ marks) := by
  induction marks using List.reverseRecOn with
  | nil => exact ⟨Int.le_refl _, List.forall_mem_nil _, .inl rfl⟩
  | append_singleton marks seqNo ih =>
      obtain ⟨floor, bound, attained⟩ := ih
      rw [ofMarks_concat, maxSeqNo_mark]
      refine ⟨by omega, fun mark member => ?_, ?_⟩
      · rcases List.mem_append.mp member with before | last
        · have := bound mark before
          omega
        · have := List.mem_singleton.mp last
          omega
      · rw [List.mem_append, List.mem_singleton]
        rcases Int.le_total seqNo (ofMarks marks).maxSeqNo with below | above
        · rw [Int.max_eq_left below]
          exact attained.imp_right .inl
        · rw [Int.max_eq_right above]
          exact .inr (.inr rfl)

theorem reflects_ofMarks (marks : List Int) : (ofMarks marks).Reflects marks := by
  obtain ⟨sound, processed⟩ := processed_ofMarks marks
  obtain ⟨floor, bound, attained⟩ := maxSeqNo_ofMarks marks
  have least := sound.least
  have known {number : Int} (positive : 0 ≤ number) :
      (ofMarks marks).hasProcessed number = true ↔ number ∈ marks := by
    rw [processed, and_iff_left positive]
  have reached (last : Int) : last ≤ (ofMarks marks).checkpoint ↔
      ∀ number, 0 ≤ number → number ≤ last → number ∈ marks := by
    rw [le_checkpoint_iff sound]
    exact forall_congr' fun number => forall_congr' fun positive =>
      imp_congr_right fun _ => known positive
  have run := (reached _).mp (Int.le_refl _)
  refine ⟨least, run, fun last => (reached last).mpr, fun number => ?_, fun number => known,
    floor, bound, attained, fun limit positive below => ?_⟩
  · constructor
    · intro member
      have above := sound.above number member
      have positive : 0 ≤ number := by omega
      exact ⟨(known positive).mp (hasProcessed_iff.mpr ⟨positive, .inr member⟩), above⟩
    · rintro ⟨marked, above⟩
      have held := (hasProcessed_iff.mp ((known (by omega)).mpr marked)).2
      exact held.resolve_left (Int.not_le.mpr above)
  · by_cases started : 0 ≤ (ofMarks marks).checkpoint
    · exact below _ (run _ started (Int.le_refl _))
    · omega

/-- Two trackers that have been told the same numbers are the same. -/
theorem Reflects.unique {first second : Tracker} {marks others : List Int}
    (reflects : first.Reflects marks) (reflectsOther : second.Reflects others)
    (same : ∀ number, number ∈ marks ↔ number ∈ others) : first = second := by
  have checkpoint : first.checkpoint = second.checkpoint := Int.le_antisymm
    (reflectsOther.greatest _ fun number positive within =>
      (same number).mp (reflects.run number positive within))
    (reflects.greatest _ fun number positive within =>
      (same number).mpr (reflectsOther.run number positive within))
  have maxSeqNo : first.maxSeqNo = second.maxSeqNo := by
    refine Int.le_antisymm ?_ ?_
    · rcases reflects.attained with none | marked
      · exact none ▸ reflectsOther.floor
      · exact reflectsOther.bound _ ((same _).mp marked)
    · rcases reflectsOther.attained with none | marked
      · exact none ▸ reflects.floor
      · exact reflects.bound _ ((same _).mpr marked)
  have waiting : first.waiting = second.waiting := Std.ExtTreeSet.ext_mem fun number => by
    rw [reflects.waiting, reflectsOther.waiting, same, checkpoint]
  cases first
  cases second
  cases checkpoint
  cases maxSeqNo
  cases waiting
  rfl

/-- Whatever numbers a new tracker is told, in whatever order and however often: it holds what
they make it as a set, and each time its checkpoint moves the loop comes to an end. -/
theorem ofMarks_as_set (marks : List Int) :
    (ofMarks marks).Reflects marks ∧
      (∀ others, (∀ number, number ∈ others ↔ number ∈ marks) →
        ofMarks others = ofMarks marks) ∧
      ∀ checkpoint waiting, ∃ turns : Nat, turns ≤ waiting.size ∧
        (advance checkpoint waiting).1 = checkpoint + turns ∧
          Drains turns (checkpoint, waiting) (advance checkpoint waiting) :=
  ⟨reflects_ofMarks marks,
    fun others same => (reflects_ofMarks others).unique (reflects_ofMarks marks) same,
    drains_advance⟩

/-- One and two wait for zero; what is negative or comes again does not count. -/
example : (ofMarks [2, -5, 1, 1]).checkpoint = -1 ∧
    (ofMarks [2, -5, 1, 1, 0, 4]).checkpoint = 2 := by
  cbv

end ShardSync.Tracker
