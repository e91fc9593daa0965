import ShardSync.Proofs.Wire.Reading
import ShardSync.Translog.Basic

/-!
# The records of an operation log

An operation is read back from its record if its texts are, and if its length fits
into the four bytes in front of it. The records of several operations are read one
after the other.
-/

set_option autoImplicit false

namespace ShardSync

open Wire Reader

namespace Action

def IsReadable : Action → Prop
  | .index id _ source => IsReadableText id ∧ source.length < 2 ^ 31
  | .delete id _ => IsReadableText id
  | .noOp reason => IsReadableText reason

instance (action : Action) : Decidable action.IsReadable :=
  match action with
  | .index id _ source =>
      inferInstanceAs (Decidable ((Text.Utf8.encode id).length < 2 ^ 31 ∧ source.length < 2 ^ 31))
  | .delete id _ | .noOp id => inferInstanceAs (Decidable ((Text.Utf8.encode id).length < 2 ^ 31))

theorem recovers (action : Action) :
    Action.read.Recovers action.write action.IsReadable action := by
  cases action with
  | index id version source =>
      refine Recovers.of_eq (.bind (recovers_u8 0) (.bind (recovers_text _)
        (.bind (recovers_i64 _) (.bind (recovers_bytes _) (.pure _))))) ?_ ?_
      · simp [write]
      · simp [IsReadable]
  | delete id version =>
      refine Recovers.of_eq (.bind (recovers_u8 1) (.bind (recovers_text _)
        (.bind (recovers_i64 _) (.pure _)))) ?_ ?_
      · simp [write]
      · simp [IsReadable]
  | noOp reason =>
      refine Recovers.of_eq (.bind (recovers_u8 2) (.bind (recovers_text _) (.pure _))) ?_ ?_
      · simp [write]
      · simp [IsReadable]

end Action

theorem Operation.recovers (operation : Operation) :
    Operation.read.Recovers operation.write operation.action.IsReadable operation := by
  refine Recovers.of_eq (.bind (recovers_i64 _) (.bind (recovers_i64 _)
    (.bind operation.action.recovers (.pure _)))) ?_ ?_
  · simp [write]
  · simp

/-- Whether the operation can be read back from its record. -/
def Operation.IsRecordable (operation : Operation) : Prop :=
  operation.action.IsReadable ∧ operation.write.length < 2 ^ 32

instance (operation : Operation) : Decidable operation.IsRecordable :=
  inferInstanceAs (Decidable (_ ∧ _))

theorem Operation.leastBytes_le (operation : Operation) :
    leastBytes ≤ operation.write.length := by
  have action : 2 ≤ operation.action.write.length := by
    cases operation.action with
    | index id | delete id | noOp id =>
        have := length_text_pos id
        simp only [Action.write, Write.u8, List.length_append, List.length_singleton]
        omega
  simp only [leastBytes, Operation.write, Write.i64, List.length_append, Bytes.length_bigEndian]
  omega

namespace Translog

theorem length_record (operation : Operation) :
    operation.record.length = operation.write.length + recordOverhead := by
  simp [Operation.record, recordOverhead]
  omega

/-- A record that is long enough is read by its checksum and by what its body says. -/
theorem readRecord_parts {body footer : Bytes} (least : Operation.leastBytes ≤ body.length)
    (short : body.length < 2 ^ 32) (width : footer.length = 4) (rest : Bytes) :
    readRecord (Bytes.bigEndian 4 body.length ++ (body ++ (footer ++ rest))) =
      if Bytes.ofBigEndian footer ≠ (checksum body).toNat then
        .error <| s!"checksum mismatch: expected {Text.Hex.padded 8 (Bytes.ofBigEndian footer)}, " ++
          s!"actual {Text.Hex.padded 8 (checksum body).toNat}"
      else
        match Wire.Reader.decode Operation.read body with
        | .ok operation => .ok (operation, body.length)
        | .error error => .error error.message := by
  have first : (Bytes.bigEndian 4 body.length).length = 4 := Bytes.length_bigEndian 4 _
  have bounded : body.length < 256 ^ 4 := short
  have length : Bytes.ofBigEndian ((Bytes.bigEndian 4 body.length ++
      (body ++ (footer ++ rest))).take 4) = body.length := by
    rw [List.take_left' first, Bytes.ofBigEndian_bigEndian, Nat.mod_eq_of_lt bounded]
  have behind : (Bytes.bigEndian 4 body.length ++ (body ++ (footer ++ rest))).drop 4 =
      body ++ (footer ++ rest) := List.drop_left' first
  have stored : ((Bytes.bigEndian 4 body.length ++ (body ++ (footer ++ rest))).drop
      (4 + body.length)).take 4 = footer := by
    rw [← List.drop_drop, behind, List.drop_left, List.take_left' width]
  simp only [readRecord, length, behind, stored, List.take_left, Bool.not_eq_true',
    Bool.eq_false_iff, ne_eq, Bytes.hasAtLeast_iff, recordOverhead, List.length_append, first,
    width]
  rw [if_neg (by omega)]
  exact if_neg (by omega)

theorem readRecord_record {operation : Operation} (recordable : operation.IsRecordable)
    (rest : Bytes) :
    readRecord (operation.record ++ rest) = .ok (operation, operation.write.length) := by
  obtain ⟨readable, short⟩ := recordable
  have parts : operation.record ++ rest = Bytes.bigEndian 4 operation.write.length ++
      (operation.write ++
        (Bytes.bigEndian 4 (checksum operation.write).toNat ++ rest)) := by
    simp [Operation.record]
  have same : Bytes.ofBigEndian (Bytes.bigEndian 4 (checksum operation.write).toNat) =
      (checksum operation.write).toNat := by
    have bounded : (checksum operation.write).toNat < 256 ^ 4 := UInt32.toNat_lt _
    rw [Bytes.ofBigEndian_bigEndian, Nat.mod_eq_of_lt bounded]
  have decoded : Operation.read.decode operation.write = .ok operation :=
    (operation.recovers.decode_eq_ok_iff operation).mpr ⟨readable, rfl⟩
  rw [parts, readRecord_parts operation.leastBytes_le short (Bytes.length_bigEndian 4 _),
    if_neg (not_not_intro same), decoded]

theorem readRecords_of_error {rest : Bytes} {reason : String} (more : rest ≠ [])
    (unreadable : readRecord rest = .error reason) (offset : Nat)
    (collected : List Operation) :
    readRecords offset collected rest = .error (.corruption offset reason) := by
  cases rest with
  | nil => exact absurd rfl more
  | cons byte bytes => rw [readRecords, unreadable]

theorem readRecords_record {operation : Operation} (recordable : operation.IsRecordable)
    (offset : Nat) (collected : List Operation) (rest : Bytes) :
    readRecords offset collected (operation.record ++ rest) =
      readRecords (offset + operation.record.length) (operation :: collected) rest := by
  have read := readRecord_record recordable rest
  have behind : (operation.record ++ rest).drop (operation.write.length + recordOverhead) =
      rest := List.drop_left' (length_record operation)
  cases content : operation.record ++ rest with
  | nil =>
      have long := congrArg List.length content
      simp [length_record, recordOverhead] at long
  | cons byte bytes =>
      rw [content] at read behind
      rw [readRecords, read]
      dsimp only
      rw [behind, length_record]

/-- The records of operations are read back in the order in which they were written, and
what follows them is read next. -/
theorem readRecords_append {operations : List Operation}
    (recordable : ∀ operation ∈ operations, operation.IsRecordable) (offset : Nat)
    (collected : List Operation) (rest : Bytes) :
    readRecords offset collected (operations.flatMap Operation.record ++ rest) =
      readRecords (offset + (operations.flatMap Operation.record).length)
        (operations.reverse ++ collected) rest := by
  induction operations generalizing offset collected with
  | nil => rfl
  | cons operation operations ih =>
      obtain ⟨first, later⟩ := List.forall_mem_cons.mp recordable
      rw [List.flatMap_cons, List.append_assoc, readRecords_record first, ih later]
      simp [Nat.add_assoc]

theorem readRecords_records {operations : List Operation}
    (recordable : ∀ operation ∈ operations, operation.IsRecordable) (offset : Nat)
    (collected : List Operation) :
    readRecords offset collected (operations.flatMap Operation.record) =
      .ok (collected.reverse ++ operations) := by
  have read := readRecords_append recordable offset collected []
  rw [List.append_nil] at read
  rw [read, readRecords]
  simp

end Translog

end ShardSync
