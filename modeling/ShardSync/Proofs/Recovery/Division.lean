import ShardSync.Proofs.Translog.Contents
import ShardSync.Recovery.Source.Batches

/-!
# Histories without gaps

A history that has been divided without finding a gap is consecutive. Taken from a
log it ends with the log's highest sequence number.
-/

set_option autoImplicit false

namespace ShardSync.Recovery

/-- The operations have consecutive sequence numbers, the first of them the given one. -/
def Contiguous (start : Int) (operations : List Operation) : Prop :=
  ∀ (index : Nat) (operation : Operation), operations[index]? = some operation →
    operation.seqNo.toInt = start + index

theorem contiguous_cons {start : Int} {operation : Operation} {operations : List Operation} :
    Contiguous start (operation :: operations) ↔
      operation.seqNo.toInt = start ∧ Contiguous (start + 1) operations := by
  constructor
  · intro contiguous
    refine ⟨by simpa using contiguous 0 operation rfl, fun index later found => ?_⟩
    have numbered := contiguous (index + 1) later found
    omega
  · rintro ⟨first, contiguous⟩ index later found
    cases index with
    | zero =>
        cases found
        simpa using first
    | succ index =>
        have numbered := contiguous index later found
        omega

namespace Batches

/-- A history that is divided without finding a gap has none. -/
theorem contiguous_of_divide {settings : Settings} {expected : Int} {batch : List Operation}
    {bytes : Nat} {operations : List Operation}
    (whole : (divide settings expected batch bytes operations).gap? = none) :
    Contiguous expected operations := by
  induction operations generalizing expected batch bytes with
  | nil => exact fun _ _ found => by simp at found
  | cons operation operations ih =>
      unfold divide at whole
      dsimp only at whole
      split at whole
      · cases whole
      · next same =>
          refine contiguous_cons.mpr ⟨not_not.mp same, ?_⟩
          split at whole
          · exact ih whole
          · exact ih whole

/-- A log's history from a number on that has no gap ends with the log. -/
theorem highest_of_whole {settings : Settings} {log : Translog} {start : Int64}
    (keyed : log.Keyed) (natural : 0 ≤ start)
    (whole : (ofHistory settings start.toInt (log.range start log.maxSeqNo)).gap? = none) :
    max log.maxSeqNo.toInt (start.toInt - 1) =
      start.toInt + (log.range start log.maxSeqNo).length - 1 := by
  have contiguous := contiguous_of_divide whole
  have natural : 0 ≤ start.toInt := Int64.le_iff_toInt_le.mp natural
  by_cases reaches : start ≤ log.maxSeqNo
  · -- The operation with the highest number is the last one of the history.
    have reached := Int64.le_iff_toInt_le.mp reaches
    obtain ⟨highest, found⟩ : ∃ highest, log.operations[log.maxSeqNo]? = some highest := by
      cases top : log.operations.maxKey? with
      | none =>
          have : log.maxSeqNo.toInt = -1 := by
            rw [Translog.maxSeqNo, top]
            rfl
          omega
      | some seqNo =>
          have same : log.maxSeqNo = seqNo := by rw [Translog.maxSeqNo, top, Option.getD_some]
          rw [same, ← Option.isSome_iff_exists, ← Std.ExtTreeMap.mem_iff_isSome_getElem?]
          exact Std.ExtTreeMap.maxKey?_mem top
    have numbered := keyed _ _ found
    have member : highest ∈ log.range start log.maxSeqNo := by
      rw [keyed.mem_range_iff, numbered]
      exact ⟨found, reaches, Int64.le_refl _⟩
    obtain ⟨index, there⟩ := List.mem_iff_getElem?.mp member
    have inside := (List.getElem?_eq_some_iff.mp there).1
    have atTop := contiguous index highest there
    rw [numbered] at atTop
    have last := List.getElem?_eq_getElem
      (show (log.range start log.maxSeqNo).length - 1 < (log.range start log.maxSeqNo).length by
        omega)
    have bound := (keyed.mem_range_iff.mp (List.mem_of_getElem? last)).2.2
    rw [Int64.le_iff_toInt_le, contiguous _ _ last] at bound
    omega
  · have none : log.range start log.maxSeqNo = [] := by
      apply List.eq_nil_iff_forall_not_mem.mpr
      intro operation member
      obtain ⟨_, above, below⟩ := keyed.mem_range_iff.mp member
      exact reaches (Int64.le_trans above below)
    have beyond : log.maxSeqNo.toInt < start.toInt := by
      rwa [Int64.le_iff_toInt_le, Int.not_le] at reaches
    rw [none, List.length_nil]
    omega

end Batches

end ShardSync.Recovery
