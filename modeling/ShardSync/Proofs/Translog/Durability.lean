import ShardSync.Proofs.Translog.Contents
import ShardSync.Proofs.Translog.Records

/-!
# What the file of a log keeps

The file of a log holds one record for every operation that was new when it came, in
the order in which they came. Entering them in this order gives the same operations
again, so the log that is opened from the file is the log itself.
-/

set_option autoImplicit false

namespace ShardSync.Translog

/-- The log after an operation has been offered, which it may refuse. -/
def offer (log : Translog) (operation : Operation) : Translog :=
  match log.add operation with
  | .ok after => after
  | .error _ => log

def offerAll (log : Translog) (calls : List Operation) : Translog :=
  calls.foldl offer log

/-- The operations that are accepted when `calls` are offered one after the other. -/
def accepted (log : Translog) : List Operation → List Operation
  | [] => []
  | operation :: calls =>
      match log.add operation with
      | .ok after => operation :: after.accepted calls
      | .error _ => log.accepted calls

/-- Whether `copy` is what opening the file of a log leads to. -/
def Reopens (log copy : Translog) : Prop :=
  ∃ file, log.file? = some file ∧ ofFile file = .ok copy

/-- What a log with a file owes to the operations it has been offered. -/
structure Durable (opened : Translog) (calls : List Operation) : Prop where
  accepts_iff (operation : Operation) :
    (∃ after, (opened.offerAll calls).add operation = .ok after) ↔
      0 ≤ operation.seqNo ∧
        ∀ held, (opened.offerAll calls).operations[operation.seqNo]? = some held →
          held = operation
  /-- What is rejected or repeated changes neither the file nor the operations. -/
  unchanged {operation : Operation}
    (idle : (∃ error, (opened.offerAll calls).add operation = .error error) ∨
      (opened.offerAll calls).operations[operation.seqNo]? = some operation) :
    (opened.offerAll calls).offer operation = opened.offerAll calls
  reopens_iff (copy : Translog) :
    (opened.offerAll calls).Reopens copy ↔ copy = opened.offerAll calls
  /-- The log, the one opened from its file and the one without a file list the same. -/
  ranges {copy : Translog} (alike : copy = opened.offerAll calls ∨
    (opened.offerAll calls).Reopens copy ∨ copy = offerAll {} calls) (first last : Int64) :
    (copy.range first last).Pairwise (fun earlier later => earlier.seqNo < later.seqNo) ∧
      ∀ operation, operation ∈ copy.range first last ↔
        operation ∈ opened.accepted calls ∧ first ≤ operation.seqNo ∧ operation.seqNo ≤ last

section Offers

variable {log : Translog} {operation : Operation}

theorem add_eq_ok_iff :
    (∃ after, log.add operation = .ok after) ↔ 0 ≤ operation.seqNo ∧
      ∀ held, log.operations[operation.seqNo]? = some held → held = operation := by
  by_cases negative : operation.seqNo < 0
  · simp [add, negative, Int64.not_le.mpr negative]
  · have natural := Int64.not_lt.mp negative
    cases found : log.operations[operation.seqNo]? with
    | none => simp [add, negative, natural, found]
    | some held =>
        by_cases same : held = operation <;> simp [add, negative, natural, found, same]

theorem offer_of_error {error : TranslogError} (refused : log.add operation = .error error) :
    log.offer operation = log := by
  simp [offer, refused]

theorem offer_of_held (held : log.operations[operation.seqNo]? = some operation) :
    log.offer operation = log := by
  cases added : log.add operation with
  | error error => exact offer_of_error added
  | ok after =>
      obtain ⟨-, rfl⟩ | ⟨-, free, -⟩ := add_cases added
      · simp [offer, added]
      · rw [held] at free
        cases free

/-- An operation is held if it was held before, or is the one that is accepted. -/
theorem held_offer_iff (other : Operation) :
    (log.offer operation).operations[other.seqNo]? = some other ↔
      log.operations[other.seqNo]? = some other ∨
        ((∃ after, log.add operation = .ok after) ∧ other = operation) := by
  cases added : log.add operation with
  | error error => simp [offer_of_error added]
  | ok after =>
      obtain ⟨held, rfl⟩ | ⟨-, free, rfl⟩ := add_cases added
      · simp only [offer, added]
        constructor
        · exact .inl
        · rintro (there | ⟨-, rfl⟩)
          · exact there
          · exact held
      · simp only [offer, added, Std.ExtTreeMap.getElem?_insert]
        by_cases same : operation.seqNo = other.seqNo
        · rw [same] at free
          simp [same, free, eq_comm]
        · have different : other ≠ operation := by
            rintro rfl
            exact same rfl
          simp [same, different]

end Offers

theorem held_offerAll_iff {log : Translog} {calls : List Operation} (operation : Operation) :
    (log.offerAll calls).operations[operation.seqNo]? = some operation ↔
      log.operations[operation.seqNo]? = some operation ∨ operation ∈ log.accepted calls := by
  induction calls generalizing log with
  | nil => simp [offerAll, accepted]
  | cons call calls ih =>
      have step := @ih (log.offer call)
      rw [held_offer_iff, or_assoc] at step
      cases added : log.add call with
      | ok after => simpa [offerAll, accepted, added, offer] using step
      | error error => simpa [offerAll, accepted, added, offer] using step

/-- What a file is written from: its records are those of operations that can be read
back, and these make up the log when they are entered in this order. -/
structure Recorded (log : Translog) (arrived : List Operation) : Prop where
  recordable : ∀ operation ∈ arrived, operation.IsRecordable
  file : log.file? = some (arrived.flatMap Operation.record)
  entered : arrived.foldlM insertNew ∅ = .ok log.operations

theorem Recorded.offer {log : Translog} {arrived : List Operation} {operation : Operation}
    (recorded : log.Recorded arrived) (recordable : operation.IsRecordable) :
    ∃ arrived, (log.offer operation).Recorded arrived := by
  cases added : log.add operation with
  | error error =>
      rw [offer_of_error added]
      exact ⟨arrived, recorded⟩
  | ok after =>
      obtain ⟨held, rfl⟩ | ⟨-, free, rfl⟩ := add_cases added
      · rw [offer_of_held held]
        exact ⟨arrived, recorded⟩
      -- Only here does the file grow, and the record goes behind those of all that came before.
      · have new : log.operations.contains operation.seqNo = false := by
          rw [Std.ExtTreeMap.contains_eq_isSome_getElem?, free, Option.isSome_none]
        refine ⟨arrived ++ [operation], ?_, ?_, ?_⟩
        · simpa [or_imp, forall_and] using ⟨recorded.recordable, recordable⟩
        · simp [Translog.offer, added, recorded.file]
        · simp [Translog.offer, added, recorded.entered, insertNew, new, bind, Except.bind, pure,
            Except.pure]

theorem Recorded.offerAll {log : Translog} {arrived calls : List Operation}
    (recorded : log.Recorded arrived)
    (recordable : ∀ operation ∈ calls, operation.IsRecordable) :
    ∃ arrived, (log.offerAll calls).Recorded arrived := by
  induction calls generalizing log arrived with
  | nil => exact ⟨arrived, recorded⟩
  | cons call calls ih =>
      obtain ⟨first, later⟩ := List.forall_mem_cons.mp recordable
      obtain ⟨arrived, recorded⟩ := recorded.offer first
      exact ih recorded later

theorem Recorded.ofFile {log : Translog} {arrived : List Operation}
    (recorded : log.Recorded arrived) :
    Translog.ofFile (arrived.flatMap Operation.record) = .ok log := by
  have read := readRecords_records recorded.recordable 0 []
  exact ofFile_eq_ok_iff.mpr ⟨arrived, by simpa using read, recorded.entered, recorded.file⟩

theorem operations_offer (log : Translog) (operation : Operation) :
    (log.offer operation).operations =
      if 0 ≤ operation.seqNo ∧ log.operations[operation.seqNo]? = none then
        log.operations.insert operation.seqNo operation
      else log.operations := by
  by_cases negative : operation.seqNo < 0
  · simp [offer, add, negative, Int64.not_le.mpr negative]
  · have natural := Int64.not_lt.mp negative
    cases found : log.operations[operation.seqNo]? with
    | none => simp [offer, add, negative, natural, found]
    | some held => by_cases same : held = operation <;> simp [offer, add, negative, found, same]

/-- A log without a file goes through the same operations. -/
theorem operations_offerAll {log other : Translog} (same : log.operations = other.operations)
    (calls : List Operation) :
    (log.offerAll calls).operations = (other.offerAll calls).operations := by
  induction calls generalizing log other with
  | nil => exact same
  | cons call calls ih =>
      apply ih
      rw [operations_offer, operations_offer, same]

theorem Keyed.offerAll {log : Translog} (keyed : log.Keyed) (calls : List Operation) :
    (log.offerAll calls).Keyed := by
  induction calls generalizing log with
  | nil => exact keyed
  | cons call calls ih =>
      apply ih
      cases added : log.add call with
      | ok after => simpa [offer, added] using keyed.add added
      | error error => simpa [offer_of_error added] using keyed

theorem Recorded.reopens_iff {log : Translog} {arrived : List Operation}
    (recorded : log.Recorded arrived) (copy : Translog) : log.Reopens copy ↔ copy = log := by
  simp [Reopens, recorded.file, recorded.ofFile, eq_comm]

theorem durable (calls : List Operation)
    (recordable : ∀ operation ∈ calls, operation.IsRecordable) :
    ∃ opened, ofFile [] = .ok opened ∧ Durable opened calls := by
  have empty : Recorded { file? := some [] } [] := ⟨by simp, rfl, rfl⟩
  obtain ⟨arrived, recorded⟩ := empty.offerAll recordable
  refine ⟨_, empty.ofFile, fun _ => add_eq_ok_iff, ?_, recorded.reopens_iff, ?_⟩
  · rintro operation (⟨error, refused⟩ | held)
    · exact offer_of_error refused
    · exact offer_of_held held
  · intro copy alike first last
    have unfiled : ({} : Translog).operations = { file? := some [] : Translog }.operations := rfl
    have same : copy.operations = (offerAll { file? := some [] } calls).operations := by
      obtain rfl | reopened | rfl := alike
      · rfl
      · rw [(recorded.reopens_iff copy).mp reopened]
      · exact operations_offerAll unfiled calls
    have keyed : copy.Keyed := by
      have original := (keyed_empty (some [])).offerAll calls
      rwa [Keyed, ← same] at original
    refine ⟨keyed.pairwise_range first last, fun operation => ?_⟩
    rw [keyed.mem_range_iff, same, held_offerAll_iff]
    simp

/-- A repeated operation, a different one in its place and one without a place. -/
theorem durable_repeated :
    let calls : List Operation :=
      [⟨2, 1, .index "a" 1 [7]⟩, ⟨0, 1, .delete "a" 2⟩, ⟨2, 1, .index "a" 1 [7]⟩,
        ⟨2, 1, .noOp "late"⟩, ⟨-1, 1, .noOp "early"⟩]
    (∀ operation ∈ calls, operation.IsRecordable) ∧
      ∃ opened, ofFile [] = .ok opened ∧ Durable opened calls := by
  intro calls
  have recordable : ∀ operation ∈ calls, operation.IsRecordable := by decide +kernel
  exact ⟨recordable, durable calls recordable⟩

end ShardSync.Translog
