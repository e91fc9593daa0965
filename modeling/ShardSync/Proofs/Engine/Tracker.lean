import ShardSync.Engine.Tracker

/-!
# What a tracker has processed

A tracker that has only been told processed numbers has processed exactly
these, and its checkpoint is the last number before the first gap.
-/

set_option autoImplicit false

namespace ShardSync.Tracker

/-- The waiting numbers lie above the checkpoint, with a gap before them. -/
structure Sound (tracker : Tracker) : Prop where
  least : -1 ≤ tracker.checkpoint
  above : ∀ number ∈ tracker.waiting, tracker.checkpoint < number
  gap : tracker.checkpoint + 1 ∉ tracker.waiting

theorem sound_empty : Sound {} where
  least := by decide
  above number member := by simp at member
  gap := by simp

theorem mem_insert_iff {numbers : Std.ExtTreeSet Int} {inserted number : Int} :
    number ∈ numbers.insert inserted ↔ number = inserted ∨ number ∈ numbers := by
  rw [Std.ExtTreeSet.mem_insert, Std.LawfulEqCmp.compare_eq_iff_eq, eq_comm]

theorem mem_erase_iff {numbers : Std.ExtTreeSet Int} {erased number : Int} :
    number ∈ numbers.erase erased ↔ number ≠ erased ∧ number ∈ numbers := by
  rw [Std.ExtTreeSet.mem_erase, ne_eq, Std.LawfulEqCmp.compare_eq_iff_eq, ne_comm]

/-- Advancing keeps the numbers up to the checkpoint and the waiting ones
together, and stops before a gap. -/
theorem advance_spec (checkpoint : Int) (waiting : Std.ExtTreeSet Int)
    (above : ∀ number ∈ waiting, checkpoint < number) :
    checkpoint ≤ (advance checkpoint waiting).1 ∧
      (∀ number ∈ (advance checkpoint waiting).2, (advance checkpoint waiting).1 < number) ∧
      (advance checkpoint waiting).1 + 1 ∉ (advance checkpoint waiting).2 ∧
      ∀ number, (number ≤ (advance checkpoint waiting).1 ∨
          number ∈ (advance checkpoint waiting).2) ↔
        (number ≤ checkpoint ∨ number ∈ waiting) := by
  fun_induction advance checkpoint waiting with
  | case1 checkpoint waiting continued ih =>
      have aboveLater : ∀ number ∈ waiting.erase (checkpoint + 1), checkpoint + 1 < number := by
        intro number member
        obtain ⟨differ, member⟩ := mem_erase_iff.mp member
        have := above number member
        omega
      obtain ⟨further, abovePassed, stopped, same⟩ := ih aboveLater
      refine ⟨by omega, abovePassed, stopped, fun number => ?_⟩
      rw [same, mem_erase_iff]
      constructor
      · intro given
        rcases given with below | ⟨_, member⟩
        · by_cases next : number = checkpoint + 1
          · exact .inr (next ▸ continued)
          · exact .inl (by omega)
        · exact .inr member
      · intro given
        rcases given with below | member
        · exact .inl (by omega)
        · by_cases next : number = checkpoint + 1
          · exact .inl (by omega)
          · exact .inr ⟨next, member⟩
  | case2 checkpoint waiting stopped =>
      exact ⟨Int.le_refl _, above, stopped, fun number => Iff.rfl⟩

theorem hasProcessed_iff {tracker : Tracker} {number : Int} :
    tracker.hasProcessed number = true ↔
      0 ≤ number ∧ (number ≤ tracker.checkpoint ∨ number ∈ tracker.waiting) := by
  simp [hasProcessed]

theorem mark_spec {tracker : Tracker} (sound : tracker.Sound) (seqNo : Int) :
    (tracker.mark seqNo).Sound ∧
      ∀ number, (tracker.mark seqNo).hasProcessed number = true ↔
        tracker.hasProcessed number = true ∨ number = seqNo ∧ 0 ≤ number := by
  unfold mark
  dsimp only
  split
  · next known =>
      refine ⟨⟨sound.least, sound.above, sound.gap⟩, fun number => ?_⟩
      rw [hasProcessed_iff, hasProcessed_iff]
      constructor
      · exact .inl
      · intro given
        rcases given with processed | ⟨rfl, positive⟩
        · exact processed
        · exact ⟨positive, .inl known⟩
  · next new =>
      have above : ∀ number ∈ tracker.waiting.insert seqNo, tracker.checkpoint < number := by
        intro number member
        rcases mem_insert_iff.mp member with rfl | member
        · omega
        · exact sound.above number member
      have least := sound.least
      obtain ⟨further, abovePassed, stopped, same⟩ := advance_spec _ _ above
      refine ⟨⟨by dsimp only; omega, abovePassed, stopped⟩, fun number => ?_⟩
      rw [hasProcessed_iff, hasProcessed_iff, same, mem_insert_iff]
      constructor
      · intro given
        obtain ⟨positive, below | rfl | member⟩ := given
        · exact .inl ⟨positive, .inl below⟩
        · exact .inr ⟨rfl, positive⟩
        · exact .inl ⟨positive, .inr member⟩
      · intro given
        rcases given with ⟨positive, below | member⟩ | ⟨rfl, positive⟩
        · exact ⟨positive, .inl below⟩
        · exact ⟨positive, .inr (.inr member)⟩
        · exact ⟨positive, .inr (.inl rfl)⟩

theorem foldl_mark_spec {tracker : Tracker} (sound : tracker.Sound) (marks : List Int) :
    (marks.foldl mark tracker).Sound ∧ ∀ number,
      (marks.foldl mark tracker).hasProcessed number = true ↔
        tracker.hasProcessed number = true ∨ number ∈ marks ∧ 0 ≤ number := by
  induction marks generalizing tracker with
  | nil =>
      refine ⟨sound, fun number => ?_⟩
      simp
  | cons seqNo marks ih =>
      obtain ⟨soundMarked, marked⟩ := mark_spec sound seqNo
      obtain ⟨soundLater, later⟩ := ih soundMarked
      refine ⟨soundLater, fun number => ?_⟩
      rw [List.foldl_cons, later, marked, List.mem_cons, or_and_right, or_assoc]

/-- The checkpoint tells up to where all numbers have been processed. -/
theorem le_checkpoint_iff {tracker : Tracker} (sound : tracker.Sound) (last : Int) :
    last ≤ tracker.checkpoint ↔
      ∀ number, 0 ≤ number → number ≤ last → tracker.hasProcessed number = true := by
  constructor
  · intro within number positive below
    exact hasProcessed_iff.mpr ⟨positive, .inl (by omega)⟩
  · intro all
    have least := sound.least
    refine Int.not_lt.mp fun beyond => ?_
    have next := (hasProcessed_iff.mp (all (tracker.checkpoint + 1) (by omega) (by omega))).2
    rcases next with below | member
    · omega
    · exact sound.gap member

end ShardSync.Tracker
