import Mathlib.Data.List.Nodup
import ShardSync.Proofs.Checksum
import ShardSync.Proofs.Translog.Contents
import ShardSync.Proofs.Translog.Records

/-!
# Damaged files of an operation log

A file that is cut off between two records is that of the operations before the cut. A
file that is cut off within a record is refused, and so is one with a changed octet in the
body or the checksum of a record. The report says where that record begins.
-/

set_option autoImplicit false

namespace ShardSync.Translog

/-- The records of operations, one after the other. -/
def fileOf (operations : List Operation) : Bytes := operations.flatMap Operation.record

/-- Where the record of the operation with the given index begins, and the one before
it ends. -/
def startOf (operations : List Operation) (index : Nat) : Nat :=
  (fileOf (operations.take index)).length

/-- The log holds these operations and no others. -/
def Holds (log : Translog) (operations : List Operation) : Prop :=
  ∀ (seqNo : Int64) (operation : Operation), log.operations[seqNo]? = some operation ↔
    operation ∈ operations ∧ operation.seqNo = seqNo

/-- Opening the file fails at the given place. -/
def IsCorruptAt (file : Bytes) (offset : Nat) : Prop :=
  ∃ reason, ofFile file = .error (.corruption offset reason)

/-- What becomes of the file of these operations when it is damaged. -/
structure Located (operations : List Operation) : Prop where
  /-- Every cut falls between two records or within one. -/
  cut (length : Nat) (short : length ≤ (fileOf operations).length) :
    (∃ count ≤ operations.length, length = startOf operations count) ∨
      ∃ index < operations.length,
        startOf operations index < length ∧ length < startOf operations (index + 1)
  between (count : Nat) (counted : count ≤ operations.length) :
    ∃ log, ofFile ((fileOf operations).take (startOf operations count)) = .ok log ∧
      log.Holds (operations.take count)
  within (index length : Nat) (counted : index < operations.length)
    (behind : startOf operations index < length)
    (before : length < startOf operations (index + 1)) :
    IsCorruptAt ((fileOf operations).take length) (startOf operations index)
  /-- The length of a body stands in the first four octets of its record. -/
  altered (index place : Nat) (file : Bytes) (counted : index < operations.length)
    (differs : (fileOf operations).DiffersOnlyAt file place)
    (behind : startOf operations index + 4 ≤ place)
    (before : place < startOf operations (index + 1)) :
    IsCorruptAt file (startOf operations index)

section Records

variable {operations : List Operation} {operation : Operation}

theorem fileOf_append (first second : List Operation) :
    fileOf (first ++ second) = fileOf first ++ fileOf second :=
  List.flatMap_append

theorem fileOf_eq_append {index : Nat} (counted : index < operations.length) :
    fileOf operations = fileOf (operations.take index) ++
      (operations[index].record ++ fileOf (operations.drop (index + 1))) := by
  have parts : operations =
      operations.take index ++ (operations[index] :: operations.drop (index + 1)) := by
    rw [List.getElem_cons_drop, List.take_append_drop]
  calc fileOf operations
      = fileOf (operations.take index ++ (operations[index] :: operations.drop (index + 1))) :=
        congrArg fileOf parts
    _ = _ := by
        rw [fileOf_append]
        rfl

theorem startOf_succ {index : Nat} (counted : index < operations.length) :
    startOf operations (index + 1) =
      startOf operations index + operations[index].record.length := by
  rw [startOf, List.take_succ_eq_append_getElem counted, fileOf_append, List.length_append]
  simp [startOf, fileOf]

theorem startOf_length (operations : List Operation) :
    startOf operations operations.length = (fileOf operations).length := by
  rw [startOf, List.take_length]

theorem take_startOf (operations : List Operation) (count : Nat) :
    (fileOf operations).take (startOf operations count) = fileOf (operations.take count) := by
  have parts := fileOf_append (operations.take count) (operations.drop count)
  rw [List.take_append_drop] at parts
  rw [parts, startOf, List.take_left]

/-- Going through the records, one comes to the one in which the file is cut off. -/
theorem cut_cases (operations : List Operation) {length : Nat} (count : Nat)
    (counted : count ≤ operations.length) (short : length ≤ startOf operations count) :
    (∃ count ≤ operations.length, length = startOf operations count) ∨
      ∃ index < operations.length,
        startOf operations index < length ∧ length < startOf operations (index + 1) := by
  induction count with
  | zero =>
      have first : startOf operations 0 = 0 := rfl
      exact .inl ⟨0, Nat.zero_le _, by omega⟩
  | succ count ih =>
      rcases Nat.lt_or_ge (startOf operations count) length with behind | before
      · rcases Nat.lt_or_eq_of_le short with inside | same
        · exact .inr ⟨count, counted, behind, inside⟩
        · exact .inl ⟨count + 1, counted, same⟩
      · exact ih (Nat.le_of_succ_le counted) before

/-- Operations with different numbers can all be entered. -/
theorem holds_of_nodup {entered : Std.ExtTreeMap Int64 Operation}
    (distinct : (operations.map Operation.seqNo).Nodup)
    (free : ∀ operation ∈ operations, entered[operation.seqNo]? = none) :
    ∃ after, operations.foldlM insertNew entered = .ok after ∧
      ∀ (seqNo : Int64) (operation : Operation), after[seqNo]? = some operation ↔
        entered[seqNo]? = some operation ∨ operation ∈ operations ∧ operation.seqNo = seqNo := by
  induction operations generalizing entered with
  | nil => exact ⟨entered, rfl, by simp⟩
  | cons first operations ih =>
      obtain ⟨new, distinct⟩ := List.nodup_cons.mp distinct
      obtain ⟨here, later⟩ := List.forall_mem_cons.mp free
      have elsewhere (operation : Operation) (member : operation ∈ operations) :
          compare first.seqNo operation.seqNo ≠ .eq := by
        intro same
        have equal := Std.LawfulEqOrd.eq_of_compare same
        exact new (equal ▸ List.mem_map_of_mem member)
      have stillFree (operation : Operation) (member : operation ∈ operations) :
          (entered.insert first.seqNo first)[operation.seqNo]? = none := by
        rw [Std.ExtTreeMap.getElem?_insert, if_neg (elsewhere operation member)]
        exact later operation member
      obtain ⟨after, ran, holds⟩ := ih distinct stillFree
      have absent : entered.contains first.seqNo = false := by
        rw [Std.ExtTreeMap.contains_eq_isSome_getElem?, here, Option.isSome_none]
      refine ⟨after, ?_, ?_⟩
      · rw [List.foldlM_cons, insertNew, if_neg (by simp [absent])]
        exact ran
      · intro seqNo operation
        rw [holds, Std.ExtTreeMap.getElem?_insert, List.mem_cons]
        by_cases same : first.seqNo = seqNo
        · subst same
          have others : ¬ (operation ∈ operations ∧ operation.seqNo = first.seqNo) :=
            fun both => new (both.2 ▸ List.mem_map_of_mem both.1)
          rw [if_pos Std.ReflCmp.compare_self, here, Option.some.injEq]
          constructor
          · rintro (rfl | both)
            · exact .inr ⟨.inl rfl, rfl⟩
            · exact absurd both others
          · rintro (held | ⟨rfl | member, numbered⟩)
            · cases held
            · exact .inl rfl
            · exact absurd ⟨member, numbered⟩ others
        · rw [if_neg fun equal => same (Std.LawfulEqOrd.eq_of_compare equal), or_and_right]
          have notFirst : ¬ (operation = first ∧ operation.seqNo = seqNo) := by
            rintro ⟨rfl, numbered⟩
            exact same numbered
          rw [or_iff_right notFirst]

theorem opened_fileOf (recordable : ∀ operation ∈ operations, operation.IsRecordable)
    (distinct : (operations.map Operation.seqNo).Nodup) :
    ∃ log, ofFile (fileOf operations) = .ok log ∧ log.Holds operations := by
  have free (operation : Operation) (_ : operation ∈ operations) :
      (∅ : Std.ExtTreeMap Int64 Operation)[operation.seqNo]? = none :=
    Std.ExtTreeMap.getElem?_empty
  obtain ⟨entered, ran, holds⟩ := holds_of_nodup distinct free
  refine ⟨{ operations := entered, file? := some (fileOf operations) }, ?_, ?_⟩
  · have read := readRecords_records recordable 0 []
    exact ofFile_eq_ok_iff.mpr ⟨operations, read, ran, rfl⟩
  · intro seqNo operation
    rw [holds]
    simp

/-- What cannot be read behind the records of operations is reported with its place. -/
theorem isCorruptAt_of_error (recordable : ∀ operation ∈ operations, operation.IsRecordable)
    {rest : Bytes} {reason : String} (more : rest ≠ [])
    (unreadable : readRecord rest = .error reason) :
    IsCorruptAt (fileOf operations ++ rest) (fileOf operations).length := by
  have read := readRecords_append recordable 0 [] rest
  rw [readRecords_of_error more unreadable, Nat.zero_add] at read
  refine ⟨reason, ?_⟩
  rw [ofFile, fileOf, read]
  rfl

theorem readRecord_take {length : Nat} (recordable : operation.IsRecordable)
    (short : length < operation.record.length) :
    ∃ reason, readRecord (operation.record.take length) = .error reason := by
  have cut : (operation.record.take length).length = length :=
    List.length_take_of_le (Nat.le_of_lt short)
  by_cases least : recordOverhead + Operation.leastBytes ≤ length
  · have first : (operation.record.take length).take 4 =
        Bytes.bigEndian 4 operation.write.length := by
      have four : min 4 length = 4 := by
        rw [recordOverhead] at least
        omega
      rw [List.take_take, four, Operation.record, List.append_assoc,
        List.take_left' (Bytes.length_bigEndian 4 _)]
    have bounded : operation.write.length < 256 ^ 4 := recordable.2
    have whole := length_record operation
    simp only [readRecord, first, Wire.Bytes.ofBigEndian_bigEndian, Nat.mod_eq_of_lt bounded,
      Bool.not_eq_true', Bool.eq_false_iff, ne_eq, Bytes.hasAtLeast_iff, cut]
    rw [if_neg (by omega), if_pos (by omega)]
    exact ⟨_, rfl⟩
  · simp only [readRecord, Bool.not_eq_true', Bool.eq_false_iff, ne_eq, Bytes.hasAtLeast_iff, cut]
    rw [if_pos least]
    exact ⟨_, rfl⟩

theorem readRecord_altered {altered : Bytes} {place : Nat}
    (recordable : operation.IsRecordable) (differs : operation.record.DiffersOnlyAt altered place)
    (behind : 4 ≤ place) (rest : Bytes) :
    ∃ reason, readRecord (altered ++ rest) = .error reason := by
  have first : (Bytes.bigEndian 4 operation.write.length).length = 4 := Bytes.length_bigEndian 4 _
  rw [Operation.record, List.append_assoc] at differs
  obtain ⟨sealed, rfl, broken⟩ := differs.of_le (by rwa [first])
  obtain ⟨body, footer, rfl, length, width, differ⟩ := checksum_ne_of_sealed broken
  have least : Operation.leastBytes ≤ body.length := length ▸ operation.leastBytes_le
  have read := readRecord_parts least (length ▸ recordable.2) width rest
  rw [if_pos differ, length] at read
  rw [List.append_assoc, List.append_assoc, read]
  exact ⟨_, rfl⟩

theorem isCorruptAt_take (recordable : ∀ operation ∈ operations, operation.IsRecordable)
    {index length : Nat} (counted : index < operations.length)
    (behind : startOf operations index < length)
    (before : length < startOf operations (index + 1)) :
    IsCorruptAt ((fileOf operations).take length) (startOf operations index) := by
  rw [startOf_succ counted] at before
  have readable : ∀ operation ∈ operations.take index, operation.IsRecordable :=
    fun operation member => recordable operation (List.mem_of_mem_take member)
  obtain ⟨torn, rfl⟩ := Nat.exists_eq_add_of_lt behind
  have short : torn + 1 < operations[index].record.length := by omega
  obtain ⟨reason, unreadable⟩ := readRecord_take (recordable _ (List.getElem_mem counted)) short
  have more : operations[index].record.take (torn + 1) ≠ [] := by
    intro none
    have := congrArg List.length none
    rw [List.length_take_of_le (Nat.le_of_lt short)] at this
    cases this
  have file : (fileOf operations).take (startOf operations index + torn + 1) =
      fileOf (operations.take index) ++ operations[index].record.take (torn + 1) := by
    rw [fileOf_eq_append counted, Nat.add_assoc, startOf, List.take_length_add_append,
      List.take_append_of_le_length (Nat.le_of_lt short)]
  rw [file]
  exact isCorruptAt_of_error readable more unreadable

theorem isCorruptAt_of_altered (recordable : ∀ operation ∈ operations, operation.IsRecordable)
    {index place : Nat} {file : Bytes} (counted : index < operations.length)
    (differs : (fileOf operations).DiffersOnlyAt file place)
    (behind : startOf operations index + 4 ≤ place)
    (before : place < startOf operations (index + 1)) :
    IsCorruptAt file (startOf operations index) := by
  rw [startOf_succ counted] at before
  have readable : ∀ operation ∈ operations.take index, operation.IsRecordable :=
    fun operation member => recordable operation (List.mem_of_mem_take member)
  rw [fileOf_eq_append counted] at differs
  have start : (fileOf (operations.take index)).length = startOf operations index := rfl
  obtain ⟨changed, rfl, later⟩ := differs.of_le (by omega)
  obtain ⟨record, rfl, damaged⟩ := later.of_lt (by omega)
  obtain ⟨reason, unreadable⟩ := readRecord_altered (recordable _ (List.getElem_mem counted))
    damaged (by omega) (fileOf (operations.drop (index + 1)))
  have more : record ++ fileOf (operations.drop (index + 1)) ≠ [] := by
    intro none
    have inside := damaged.lt_length
    have length := damaged.length_eq
    rw [(List.append_eq_nil_iff.mp none).1, List.length_nil] at length
    omega
  exact isCorruptAt_of_error readable more unreadable

end Records

/-- However the file of operations is cut off, and whichever octet of a body or a checksum
is changed: opening it gives the operations before the cut, or tells where the damaged record
begins. -/
theorem damage_located (operations : List Operation)
    (recordable : ∀ operation ∈ operations, operation.IsRecordable)
    (distinct : (operations.map Operation.seqNo).Nodup) : Located operations := by
  constructor
  case cut =>
    intro length short
    rw [← startOf_length] at short
    exact cut_cases operations operations.length (Nat.le_refl _) short
  case between =>
    intro count _
    rw [take_startOf]
    have readable : ∀ operation ∈ operations.take count, operation.IsRecordable :=
      fun operation member => recordable operation (List.mem_of_mem_take member)
    apply opened_fileOf readable
    rw [List.map_take]
    exact distinct.sublist (List.take_sublist _ _)
  case within =>
    intro index length counted behind before
    exact isCorruptAt_take recordable counted behind before
  case altered =>
    intro index place file counted differs behind before
    exact isCorruptAt_of_altered recordable counted differs behind before

/-- The second of three records lacks its last octets, or has another first octet in its
body. -/
theorem damage_located_three :
    let operations : List Operation :=
      [⟨2, 1, .index "a" 1 [7]⟩, ⟨-1, 1, .delete "a" 2⟩, ⟨0, 1, .noOp "late"⟩]
    (∀ operation ∈ operations, operation.IsRecordable) ∧
      (operations.map Operation.seqNo).Nodup ∧
      IsCorruptAt ((fileOf operations).take 67) 37 ∧
      IsCorruptAt ((fileOf operations).set 41 0) 37 := by
  intro operations
  have recordable : ∀ operation ∈ operations, operation.IsRecordable := by decide +kernel
  have distinct : (operations.map Operation.seqNo).Nodup := by decide +kernel
  have found : Located operations := damage_located operations recordable distinct
  have start : startOf operations 1 = 37 := by decide +kernel
  refine ⟨recordable, distinct, ?_, ?_⟩
  · have torn := found.within 1 67 (by decide) (by decide +kernel) (by decide +kernel)
    rwa [start] at torn
  · have altered := found.altered 1 41 ((fileOf operations).set 41 0) (by decide)
      ⟨by decide +kernel, 0, rfl⟩ (by decide +kernel) (by decide +kernel)
    rwa [start] at altered

end ShardSync.Translog
