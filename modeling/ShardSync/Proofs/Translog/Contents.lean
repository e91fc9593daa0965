import ShardSync.Proofs.Outcome
import ShardSync.Translog.Basic

/-!
# The contents of an operation log

A log keeps every operation under its own sequence number, however it was made. A
range of it lists the operations in increasing order, each of them once.
-/

set_option autoImplicit false

namespace ShardSync.Translog

/-- Every operation is kept under its own sequence number. -/
def Keyed (log : Translog) : Prop :=
  ∀ (seqNo : Int64) (operation : Operation), log.operations[seqNo]? = some operation →
    operation.seqNo = seqNo

theorem keyed_empty (file? : Option Bytes) : Keyed { file? } := by
  intro seqNo operation found
  simp at found

theorem Keyed.insert {log : Translog} (keyed : log.Keyed) (operation : Operation)
    (file? : Option Bytes) :
    Keyed { operations := log.operations.insert operation.seqNo operation, file? } := by
  intro seqNo other found
  rw [Std.ExtTreeMap.getElem?_insert] at found
  split at found
  · next same =>
      cases found
      exact Std.LawfulEqOrd.eq_of_compare same
  · exact keyed seqNo other found

/-- What adding an operation can come to: it is added, or it is there already. -/
theorem add_cases {log after : Translog} {operation : Operation}
    (added : log.add operation = .ok after) :
    (log.operations[operation.seqNo]? = some operation ∧ after = log) ∨
    (0 ≤ operation.seqNo ∧ log.operations[operation.seqNo]? = none ∧
      after = { operations := log.operations.insert operation.seqNo operation
                file? := log.file?.map (· ++ operation.record) }) := by
  unfold Translog.add at added
  split at added
  · cases added
  · next natural =>
      split at added
      · next existing found =>
          split at added
          · next same =>
              cases added
              exact .inl ⟨same ▸ found, rfl⟩
          · cases added
      · next free =>
          cases added
          exact .inr ⟨Int64.not_lt.mp natural, free, rfl⟩

theorem Keyed.add {log after : Translog} {operation : Operation} (keyed : log.Keyed)
    (added : log.add operation = .ok after) : after.Keyed := by
  obtain ⟨-, rfl⟩ | ⟨-, -, rfl⟩ := add_cases added
  · exact keyed
  · exact keyed.insert operation _

/-- A file is the log of its records if these have different numbers. -/
theorem ofFile_eq_ok_iff {file : Bytes} {log : Translog} :
    ofFile file = .ok log ↔ ∃ records, readRecords 0 [] file = .ok records ∧
      records.foldlM insertNew ∅ = .ok log.operations ∧ log.file? = some file := by
  obtain ⟨operations, file?⟩ := log
  cases read : readRecords 0 [] file with
  | error error => simp [ofFile, read, bind, Except.bind]
  | ok records =>
      cases ran : records.foldlM insertNew ∅ <;>
        simp [ofFile, read, ran, bind, Except.bind, pure, Except.pure, eq_comm]

theorem keyed_ofFile {file : Bytes} {log : Translog} (opened : ofFile file = .ok log) :
    log.Keyed := by
  have entered {entered : List Operation} {operations after : Std.ExtTreeMap Int64 Operation}
      (keyed : Keyed { operations })
      (ran : entered.foldlM insertNew operations = .ok after) : Keyed { operations := after } := by
    induction entered generalizing operations with
    | nil =>
        cases ran
        exact keyed
    | cons operation entered ih =>
        rw [List.foldlM_cons, bind_eq_ok_iff] at ran
        obtain ⟨between, first, ran⟩ := ran
        refine ih ?_ ran
        unfold insertNew at first
        split at first
        · cases first
        · cases first
          exact keyed.insert operation none
  obtain ⟨records, -, ran, -⟩ := ofFile_eq_ok_iff.mp opened
  exact entered (keyed_empty none) ran

theorem Keyed.mem_range_iff {log : Translog} (keyed : log.Keyed) {first last : Int64}
    {operation : Operation} :
    operation ∈ log.range first last ↔ log.operations[operation.seqNo]? = some operation ∧
      first ≤ operation.seqNo ∧ operation.seqNo ≤ last := by
  rw [range, List.mem_filterMap]
  constructor
  · rintro ⟨⟨seqNo, other⟩, member, chosen⟩
    have found := Std.ExtTreeMap.mem_toList_iff_getElem?_eq_some.mp member
    dsimp only at chosen
    by_cases within : first ≤ seqNo ∧ seqNo ≤ last
    · rw [if_pos within, Option.some.injEq] at chosen
      subst chosen
      rw [keyed seqNo other found]
      exact ⟨found, within⟩
    · rw [if_neg within] at chosen
      cases chosen
  · rintro ⟨found, within⟩
    exact ⟨(operation.seqNo, operation),
      Std.ExtTreeMap.mem_toList_iff_getElem?_eq_some.mpr found, if_pos within⟩

theorem Keyed.pairwise_range {log : Translog} (keyed : log.Keyed) (first last : Int64) :
    (log.range first last).Pairwise fun earlier later => earlier.seqNo < later.seqNo := by
  have ordered : log.operations.toList.Pairwise fun earlier later => earlier.1 < later.1 :=
    Std.ExtTreeMap.ordered_keys_toList.imp Std.compare_eq_lt.mp
  have numbered {seqNo : Int64} {operation chosen : Operation}
      (member : (seqNo, operation) ∈ log.operations.toList)
      (picked : (if first ≤ seqNo ∧ seqNo ≤ last then some operation else none) = some chosen) :
      chosen.seqNo = seqNo := by
    obtain ⟨-, same⟩ := Option.ite_none_right_eq_some.mp picked
    cases same
    exact keyed seqNo _ (Std.ExtTreeMap.mem_toList_iff_getElem?_eq_some.mp member)
  refine List.pairwise_filterMap.mpr (ordered.imp_of_mem ?_)
  intro earlier later before after less one picked other chosen
  rw [numbered before picked, numbered after chosen]
  exact less

end ShardSync.Translog
