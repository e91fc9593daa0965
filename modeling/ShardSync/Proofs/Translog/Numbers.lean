import ShardSync.Proofs.Translog.Damage
import ShardSync.Proofs.Translog.Durability

/-!
# The numbers of an operation log

A log does not add an operation with a negative number, but it takes over all that the
records of its file hold. So its numbers are valid, and the highest of them tells an empty
log from others, if and only if the numbers in the file are valid.
-/

set_option autoImplicit false

namespace ShardSync.Translog

/-- A log without negative numbers, whose highest number tells whether it is empty. -/
structure WellNumbered (log : Translog) : Prop where
  natural : ∀ (seqNo : Int64) (operation : Operation),
    log.operations[seqNo]? = some operation → 0 ≤ operation.seqNo
  unnumbered_iff : log.maxSeqNo = noOperations ↔ log.size = 0
  highest : log.size ≠ 0 → 0 ≤ log.maxSeqNo ∧
    (∃ operation, log.operations[log.maxSeqNo]? = some operation ∧
      operation.seqNo = log.maxSeqNo) ∧
    ∀ (seqNo : Int64) (operation : Operation), log.operations[seqNo]? = some operation →
      operation.seqNo ≤ log.maxSeqNo

/-- The operations in the records of a file, if all of them can be read. -/
def recorded (file : Bytes) : List Operation := (readRecords 0 [] file).toOption.getD []

section Numbers

variable {log : Translog} {operations : List Operation} {operation : Operation}

theorem maxSeqNo_of_empty (empty : log.size = 0) : log.maxSeqNo = noOperations := by
  have none : log.operations = ∅ := Std.ExtTreeMap.eq_empty_iff_size_eq_zero.mpr empty
  simp [maxSeqNo, none]

theorem maxSeqNo_of_filled (filled : log.size ≠ 0) :
    log.maxSeqNo ∈ log.operations ∧ ∀ seqNo ∈ log.operations, seqNo ≤ log.maxSeqNo := by
  have some : log.operations ≠ ∅ := fun none =>
    filled (Std.ExtTreeMap.eq_empty_iff_size_eq_zero.mp none)
  obtain ⟨highest, found⟩ :=
    Option.isSome_iff_exists.mp (Std.ExtTreeMap.isSome_maxKey?_iff_ne_empty.mpr some)
  have same : log.maxSeqNo = highest := by simp [maxSeqNo, found]
  obtain ⟨member, above⟩ := Std.ExtTreeMap.maxKey?_eq_some_iff_mem_and_forall.mp found
  rw [same]
  exact ⟨member, fun seqNo listed => Std.isLE_compare.mp (above seqNo listed)⟩

theorem Keyed.wellNumbered (keyed : log.Keyed)
    (natural : ∀ (seqNo : Int64) (operation : Operation),
      log.operations[seqNo]? = some operation → 0 ≤ operation.seqNo) : log.WellNumbered := by
  have highest (filled : log.size ≠ 0) : ∃ operation,
      log.operations[log.maxSeqNo]? = some operation ∧ operation.seqNo = log.maxSeqNo ∧
        0 ≤ log.maxSeqNo := by
    have member := (maxSeqNo_of_filled filled).1
    obtain ⟨operation, found⟩ :=
      Option.isSome_iff_exists.mp (Std.ExtTreeMap.mem_iff_isSome_getElem?.mp member)
    have same := keyed log.maxSeqNo operation found
    exact ⟨operation, found, same, same ▸ natural log.maxSeqNo operation found⟩
  constructor
  case natural => exact natural
  case unnumbered_iff =>
    constructor
    · intro unnumbered
      by_cases filled : log.size = 0
      · exact filled
      · obtain ⟨_, _, _, positive⟩ := highest filled
        rw [unnumbered] at positive
        exact absurd positive (by decide)
    · exact maxSeqNo_of_empty
  case highest =>
    intro filled
    obtain ⟨operation, found, same, positive⟩ := highest filled
    refine ⟨positive, ⟨operation, found, same⟩, fun seqNo other held => ?_⟩
    have listed : seqNo ∈ log.operations := by simp [Std.ExtTreeMap.mem_iff_isSome_getElem?, held]
    rw [keyed seqNo other held]
    exact (maxSeqNo_of_filled filled).2 seqNo listed

/-- Operations can only be entered under numbers that are free and differ. -/
theorem free_of_entered {entered after : Std.ExtTreeMap Int64 Operation}
    (ran : operations.foldlM insertNew entered = .ok after) :
    (operations.map Operation.seqNo).Nodup ∧
      ∀ operation ∈ operations, entered[operation.seqNo]? = none := by
  induction operations generalizing entered with
  | nil => simp
  | cons first operations ih =>
      obtain ⟨between, inserted, ran⟩ := bind_eq_ok_iff.mp ran
      unfold insertNew at inserted
      cases there : entered.contains first.seqNo with
      | true => simp [there] at inserted
      | false =>
          simp only [there] at inserted
          cases inserted
          obtain ⟨distinct, free⟩ := ih ran
          have apart (operation : Operation) (member : operation ∈ operations) :
              first.seqNo ≠ operation.seqNo ∧ entered[operation.seqNo]? = none := by
            have unheld := free operation member
            rw [Std.ExtTreeMap.getElem?_insert] at unheld
            split at unheld
            · cases unheld
            · next differ =>
                exact ⟨fun same => differ (Std.LawfulEqOrd.compare_eq_iff_eq.mpr same), unheld⟩
          constructor
          · simp only [List.map_cons, List.nodup_cons, List.mem_map, not_exists, not_and]
            exact ⟨fun operation member same => (apart operation member).1 same.symm, distinct⟩
          · intro operation member
            rcases List.mem_cons.mp member with rfl | later
            · rwa [Std.ExtTreeMap.contains_eq_isSome_getElem?, Option.isSome_eq_false_iff,
                Option.isNone_iff_eq_none] at there
            · exact (apart operation later).2

/-- A log that is opened holds what the records of its file hold. -/
theorem holds_ofFile {file : Bytes} (opened : ofFile file = .ok log) :
    log.Holds (recorded file) := by
  obtain ⟨records, read, ran, -⟩ := ofFile_eq_ok_iff.mp opened
  obtain ⟨distinct, free⟩ := free_of_entered ran
  obtain ⟨after, again, holds⟩ := holds_of_nodup distinct free
  have entered : log.operations = after := Except.ok.inj (ran.symm.trans again)
  have same : recorded file = records := by
    rw [recorded, read]
    rfl
  intro seqNo operation
  rw [entered, same, holds]
  simp

theorem natural_of_accepted {calls : List Operation} (member : operation ∈ log.accepted calls) :
    0 ≤ operation.seqNo := by
  induction calls generalizing log with
  | nil => simp [accepted] at member
  | cons call calls ih =>
      cases added : log.add call with
      | error error =>
          simp only [accepted, added] at member
          exact ih member
      | ok after =>
          simp only [accepted, added, List.mem_cons] at member
          rcases member with rfl | later
          · exact (add_eq_ok_iff.mp ⟨after, added⟩).1
          · exact ih later

end Numbers

/-- Whatever file a log is opened from, and whatever operations are added to it from then on:
its numbers are valid, and its highest number is what it should be, if and only if no record
of the file has a negative number. -/
theorem wellNumbered_iff {file : Bytes} {opened : Translog} (accepted : ofFile file = .ok opened)
    (calls : List Operation) :
    (opened.offerAll calls).WellNumbered ↔ ∀ operation ∈ recorded file, 0 ≤ operation.seqNo := by
  have keyed : (opened.offerAll calls).Keyed := (keyed_ofFile accepted).offerAll calls
  have holds := holds_ofFile accepted
  constructor
  · intro numbered operation member
    have held : (opened.offerAll calls).operations[operation.seqNo]? = some operation :=
      (held_offerAll_iff operation).mpr
        (.inl ((holds operation.seqNo operation).mpr ⟨member, rfl⟩))
    exact numbered.natural operation.seqNo operation held
  · intro natural
    apply keyed.wellNumbered
    intro seqNo operation found
    obtain rfl := keyed seqNo operation found
    rcases (held_offerAll_iff operation).mp found with before | added
    · exact natural operation ((holds operation.seqNo operation).mp before).1
    · exact natural_of_accepted added

/-- A file with two records, to whose log a number that is free, one that is taken and one
that is negative are offered. -/
theorem wellNumbered_iff_offers :
    let records : List Operation := [⟨2, 1, .index "a" 1 [7]⟩, ⟨0, 1, .delete "a" 2⟩]
    let calls : List Operation := [⟨5, 1, .noOp "new"⟩, ⟨2, 1, .noOp "late"⟩, ⟨-1, 1, .noOp "early"⟩]
    ∃ opened, ofFile (fileOf records) = .ok opened ∧ (opened.offerAll calls).WellNumbered := by
  intro records calls
  have recordable : ∀ operation ∈ records, operation.IsRecordable := by decide +kernel
  obtain ⟨opened, accepted, -⟩ := opened_fileOf recordable (by decide +kernel)
  have read : recorded (fileOf records) = records := by
    simp [recorded, fileOf, readRecords_records recordable, Except.toOption]
  refine ⟨opened, accepted, (wellNumbered_iff accepted calls).mpr ?_⟩
  rw [read]
  decide +kernel

/-- A record with the number that stands for an empty history is taken over, so the log has
an operation and says that it has none. -/
theorem not_wellNumbered_minusOne :
    (¬ ∀ (file : Bytes) (opened : Translog) (calls : List Operation),
        ofFile file = .ok opened → (opened.offerAll calls).WellNumbered) ∧
      ∃ opened, ofFile (fileOf [⟨-1, 1, .noOp ""⟩]) = .ok opened ∧ opened.size = 1 ∧
        opened.maxSeqNo = noOperations := by
  have recordable : ∀ operation ∈ [(⟨-1, 1, .noOp ""⟩ : Operation)], operation.IsRecordable := by
    decide +kernel
  have accepted : ofFile (fileOf [⟨-1, 1, .noOp ""⟩]) = .ok {
      operations := Std.ExtTreeMap.insert ∅ (-1) ⟨-1, 1, .noOp ""⟩
      file? := some (fileOf [⟨-1, 1, .noOp ""⟩]) } :=
    ofFile_eq_ok_iff.mpr ⟨_, readRecords_records recordable 0 [], rfl, rfl⟩
  have highest : (Std.ExtTreeMap.insert (∅ : Std.ExtTreeMap Int64 Operation) (-1)
      ⟨-1, 1, .noOp ""⟩).maxKey?.getD noOperations = noOperations := by
    simp [Std.ExtTreeMap.maxKey?_insert, noOperations]
  refine ⟨fun claimed => ?_, _, accepted, by decide +kernel, highest⟩
  have empty := (claimed _ _ [] accepted).unnumbered_iff.mp highest
  exact absurd empty (by decide +kernel)

end ShardSync.Translog
