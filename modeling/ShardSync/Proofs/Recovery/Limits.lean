import Mathlib.Algebra.GroupWithZero.Nat
import ShardSync.Proofs.Recovery.Division
import ShardSync.Proofs.Translog.Records

/-!
# The limits of a batch

A batch that is sent holds an operation and not more than it may, and takes up no more
bytes than it may unless it is a single operation. Up to the first gap, operations are in
exactly one batch, or in the one that has been begun and is not sent for the gap.
-/

set_option autoImplicit false

namespace ShardSync

open Wire

theorem Wire.length_groups_le {count value : Nat} (positive : 0 < count)
    (bounded : value < 128 ^ count) : (groups value).length ≤ count := by
  induction count generalizing value with
  | zero => cases positive
  | succ count ih =>
      unfold groups
      split
      · exact positive
      · next large =>
          have lower : value / 128 < 128 ^ count :=
            Nat.div_lt_of_lt_mul (by rwa [Nat.pow_succ, Nat.mul_comm] at bounded)
          have positive : 0 < count := by
            rw [Nat.pos_iff_ne_zero]
            rintro rfl
            exact large bounded
          exact Nat.succ_le_succ (ih positive lower)

theorem Wire.length_bytes_le {value : Bytes} (small : value.length < 2 ^ 31) :
    (Write.bytes value).length ≤ 5 + value.length := by
  rw [Write.bytes, List.length_append]
  exact Nat.add_le_add_right (length_groups_le (by decide) (Nat.lt_trans small (by decide))) _

namespace Operation

/-- The estimate is not too low for an operation that can be read: five bytes are enough
for the length of a text then. -/
theorem length_write_le {operation : Operation} (readable : operation.action.IsReadable) :
    operation.write.length ≤ operation.estimatedSize := by
  obtain ⟨seqNo, primaryTerm, action⟩ := operation
  have text {value : String} (small : Reader.IsReadableText value) :
      (Write.text value).length ≤ 5 + value.utf8ByteSize := length_bytes_le small
  cases action with
  | index id version source =>
      have id := text readable.1
      have source := length_bytes_le readable.2
      simp only [write, Action.write, estimatedSize, Write.i64, Write.u8, List.length_append,
        List.length_singleton, Bytes.length_bigEndian]
      omega
  | delete id version =>
      have id := text readable
      simp only [write, Action.write, estimatedSize, Write.i64, Write.u8, List.length_append,
        List.length_singleton, Bytes.length_bigEndian]
      omega
  | noOp reason =>
      have reason := text readable
      simp only [write, Action.write, estimatedSize, Write.i64, Write.u8, List.length_append,
        List.length_singleton, Bytes.length_bigEndian]
      omega

end Operation

namespace Recovery

namespace Batches

variable {settings : Settings} {expected : Int} {batch : List Operation}
  {operation : Operation} {operations : List Operation}

/-- The number of bytes that some operations are taken to need. -/
def estimate (batch : List Operation) : Nat := (batch.map Operation.estimatedSize).sum

theorem estimate_concat (batch : List Operation) (operation : Operation) :
    estimate (batch ++ [operation]) = estimate batch + operation.estimatedSize := by
  simp [estimate]

theorem length_flatMap_write_le (readable : ∀ operation ∈ batch, operation.action.IsReadable) :
    (batch.flatMap Operation.write).length ≤ estimate batch := by
  induction batch with
  | nil => exact Nat.le_refl 0
  | cons operation batch ih =>
      obtain ⟨here, later⟩ := List.forall_mem_cons.mp readable
      have first := Operation.length_write_le here
      have others := ih later
      simp only [List.flatMap_cons, List.length_append, estimate, List.map_cons, List.sum_cons]
        at others ⊢
      omega

/-- A batch as the settings want it. -/
structure Suits (settings : Settings) (batch : List Operation) : Prop where
  filled : batch ≠ []
  few : batch.length ≤ max 1 settings.batchOperations
  small : batch.length = 1 ∨ estimate batch ≤ settings.batchBytes

theorem suits_single (settings : Settings) (operation : Operation) :
    Suits settings [operation] where
  filled := List.cons_ne_nil _ _
  few := Nat.le_max_left _ _
  small := .inl rfl

/-- An operation for which there is room may join the batch. -/
theorem suits_concat
    (room : isFull settings batch (estimate batch) operation.estimatedSize = false) :
    Suits settings (batch ++ [operation]) := by
  cases batch with
  | nil => exact suits_single settings operation
  | cons first others =>
      simp only [isFull, List.isEmpty_cons, Bool.not_false, Bool.true_and, Bool.or_eq_false_iff,
        decide_eq_false_iff_not, Nat.not_le, Nat.not_lt] at room
      refine ⟨by simp, ?_, .inr ?_⟩
      · rw [List.length_append, List.length_singleton]
        exact Nat.le_trans room.1 (Nat.le_max_right _ _)
      · rw [estimate_concat]
        exact room.2

theorem suits_divide (begun : batch = [] ∨ Suits settings batch) :
    ∀ sent ∈ (divide settings expected batch (estimate batch) operations).batches,
      Suits settings sent := by
  induction operations generalizing expected batch with
  | nil =>
      intro sent member
      rcases begun with rfl | suits
      · cases member
      · simp only [divide, List.isEmpty_eq_false_iff.mpr suits.filled, Bool.false_eq_true,
          if_false, List.mem_singleton] at member
        rwa [member]
  | cons operation operations ih =>
      unfold divide
      dsimp only
      split
      · exact fun sent member => by cases member
      · split
        · next full =>
            have suits : Suits settings batch := by
              refine begun.resolve_left ?_
              rintro rfl
              cases full
            have single : estimate [operation] = operation.estimatedSize := Nat.add_zero _
            rw [push, List.forall_mem_cons, ← single]
            exact ⟨suits, ih (.inr (suits_single settings operation))⟩
        · next room =>
            rw [← estimate_concat]
            exact ih (.inr (suits_concat (Bool.eq_false_iff.mpr room)))

/-- Operations are sent in their order, and none that come later than one that is not sent. -/
theorem flatten_divide {bytes : Nat} :
    (divide settings expected batch bytes operations).batches.flatten <+: batch ++ operations := by
  induction operations generalizing expected batch bytes with
  | nil =>
      cases batch with
      | nil => exact List.prefix_refl _
      | cons first others => simp [divide]
  | cons operation operations ih =>
      unfold divide
      dsimp only
      split
      · exact List.nil_prefix
      · split
        · rw [push, List.flatten_cons, List.prefix_append_right_inj, ← List.singleton_append]
          exact ih
        · rw [List.append_cons batch operation operations]
          exact ih

/-- Behind operations without a gap the division goes on with a batch that has been begun.
They are in this batch or in one that has been sent. -/
theorem divide_append (settings : Settings) (batch : List Operation) (bytes : Nat)
    (contiguous : Contiguous expected operations) (later : List Operation) :
    ∃ (sent : List (List Operation)) (begun : List Operation) (size : Nat),
      sent.flatten ++ begun = batch ++ operations ∧
      divide settings expected batch bytes (operations ++ later) =
        sent.foldr push
          (divide settings (expected + operations.length) begun size later) := by
  induction operations generalizing expected batch bytes with
  | nil => exact ⟨[], batch, bytes, by simp, by simp⟩
  | cons operation operations ih =>
      obtain ⟨first, others⟩ := contiguous_cons.mp contiguous
      have count : expected + (operation :: operations).length =
          expected + 1 + operations.length := by
        rw [List.length_cons]
        omega
      rw [List.cons_append, divide, if_neg (not_not.mpr first), count]
      split
      · obtain ⟨sent, begun, size, whole, divided⟩ := ih [operation] _ others
        refine ⟨batch :: sent, begun, size, ?_, congrArg (push batch) divided⟩
        rw [List.flatten_cons, List.append_assoc, whole, List.singleton_append]
      · obtain ⟨sent, begun, size, whole, divided⟩ := ih (batch ++ [operation]) _ others
        exact ⟨sent, begun, size, by simpa using whole, divided⟩

theorem batches_foldr_push (sent : List (List Operation)) (rest : Batches) :
    sent.foldr push rest = { rest with batches := sent ++ rest.batches } := by
  induction sent with
  | nil => rfl
  | cons batch sent ih => rw [List.foldr_cons, ih, push, List.cons_append]

/-- A history without a gap is sent as it is. -/
theorem divide_of_contiguous (settings : Settings) (batch : List Operation) (bytes : Nat)
    (contiguous : Contiguous expected operations) :
    (divide settings expected batch bytes operations).gap? = none ∧
      (divide settings expected batch bytes operations).batches.flatten = batch ++ operations := by
  obtain ⟨sent, begun, size, whole, divided⟩ :=
    divide_append settings batch bytes contiguous []
  rw [List.append_nil] at divided
  rw [divided, batches_foldr_push, divide]
  refine ⟨rfl, ?_⟩
  rw [← whole, List.flatten_append]
  cases begun with
  | nil => rfl
  | cons first others => exact congrArg _ (List.append_nil _)

/-- At a gap it is known what has been expected, and what has been sent comes before. -/
theorem divide_of_departing (settings : Settings) (batch : List Operation) (bytes : Nat)
    (contiguous : Contiguous expected operations)
    (departs : operation.seqNo.toInt ≠ expected + operations.length)
    (later : List Operation) :
    (divide settings expected batch bytes (operations ++ operation :: later)).gap? =
        some { expected := expected + operations.length, actual := operation.seqNo.toInt } ∧
      (divide settings expected batch bytes (operations ++ operation :: later)).batches.flatten <+:
        batch ++ operations := by
  obtain ⟨sent, begun, size, whole, divided⟩ :=
    divide_append settings batch bytes contiguous (operation :: later)
  rw [divided, batches_foldr_push, divide, if_pos departs]
  refine ⟨rfl, begun, ?_⟩
  rw [← whole, List.append_nil]

end Batches

end Recovery

end ShardSync
