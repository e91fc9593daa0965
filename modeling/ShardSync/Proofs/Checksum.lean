import Mathlib.Data.List.Induction
import ShardSync.Checksum
import ShardSync.Proofs.Wire.Reading

/-!
# What a checksum tells apart

No step of the checksum loses anything: the register before it can be told from the
register after it. So two byte strings that differ in one octet differ in their checksums,
however long they are and wherever the octet stands.

A part that is followed by its own checksum is sealed. If one octet of the two is changed,
the checksum is not that of the part any more.
-/

set_option autoImplicit false

namespace ShardSync

namespace Checksum

theorem odd_iff (register : UInt32) :
    register &&& 1 = 1 ↔ register.toBitVec.getLsbD 0 = true := by
  rw [← UInt32.toBitVec_inj, UInt32.toBitVec_and]
  change register.toBitVec &&& 1#32 = 1#32 ↔ _
  rw [BitVec.and_one_eq_setWidth_ofBool_getLsbD]
  cases register.toBitVec.getLsbD 0 <;> decide

/-- The bits move down by one place, and the bit that drops out adds the polynomial. -/
theorem getLsbD_shift (register : UInt32) (place : Nat) :
    (shift register).toBitVec.getLsbD place =
      (register.toBitVec.getLsbD (place + 1) ^^
        (register.toBitVec.getLsbD 0 && polynomial.toBitVec.getLsbD place)) := by
  have moved : (register >>> 1).toBitVec.getLsbD place =
      register.toBitVec.getLsbD (place + 1) := by
    rw [UInt32.toBitVec_shiftRight]
    change (register.toBitVec >>> 1).getLsbD place = _
    rw [BitVec.getLsbD_ushiftRight, Nat.add_comm]
  unfold shift
  by_cases odd : register &&& 1 = 1
  · rw [if_pos odd, (odd_iff register).mp odd, UInt32.toBitVec_xor, BitVec.getLsbD_xor, moved,
      Bool.true_and]
  · rw [if_neg odd, Bool.eq_false_iff.mpr ((odd_iff register).not.mp odd), moved, Bool.false_and,
      Bool.xor_false]

theorem shift_injective : Function.Injective shift := by
  intro first second same
  have bits (place : Nat) := congrArg (fun register => register.toBitVec.getLsbD place) same
  simp only [getLsbD_shift] at bits
  -- The polynomial has its highest bit set, and no bit moves into that place.
  have lowest : first.toBitVec.getLsbD 0 = second.toBitVec.getLsbD 0 := by
    have highest : polynomial.toBitVec.getLsbD 31 = true := rfl
    have top := bits 31
    rwa [highest, BitVec.getLsbD_of_ge first.toBitVec _ (Nat.le_refl 32),
      BitVec.getLsbD_of_ge second.toBitVec _ (Nat.le_refl 32), Bool.false_xor, Bool.false_xor,
      Bool.and_true, Bool.and_true] at top
  apply UInt32.toBitVec_inj.mp
  apply BitVec.eq_of_getLsbD_eq
  intro place _
  cases place with
  | zero => exact lowest
  | succ place =>
      have shifted := bits place
      rw [lowest] at shifted
      exact Bool.xor_left_inj.mp shifted

theorem update_eq_iff {first second : UInt32} {octet other : UInt8} :
    update first octet = update second other ↔
      first ^^^ octet.toUInt32 = second ^^^ other.toUInt32 := by
  simp only [update, shift_injective.eq_iff]

theorem update_injective (octet : UInt8) : Function.Injective (update · octet) := by
  intro first second same
  exact (UInt32.xor_left_inj _).mp (update_eq_iff.mp same)

theorem update_ne {octet other : UInt8} (differ : octet ≠ other) (register : UInt32) :
    update register octet ≠ update register other := by
  intro same
  have widened := (UInt32.xor_right_inj _).mp (update_eq_iff.mp same)
  exact differ (UInt8.toUInt32_inj.mp widened)

theorem foldl_update_injective (content : Bytes) :
    Function.Injective fun register => content.foldl update register := by
  induction content with
  | nil => exact Function.injective_id
  | cons octet content ih =>
      intro first second same
      exact update_injective octet (ih same)

end Checksum

namespace Bytes

/-- `altered` is `content` with another octet at `place`. -/
def DiffersOnlyAt (content altered : Bytes) (place : Nat) : Prop :=
  altered ≠ content ∧ ∃ octet, altered = content.set place octet

instance (content altered : Bytes) (place : Nat) :
    Decidable (content.DiffersOnlyAt altered place) :=
  decidable_of_iff (altered ≠ content ∧ altered = content.set place (altered.getD place 0)) <| by
    constructor
    · rintro ⟨differ, same⟩
      exact ⟨differ, _, same⟩
    · rintro ⟨differ, octet, rfl⟩
      refine ⟨differ, ?_⟩
      by_cases inside : place < content.length
      · simp [inside]
      · simp [List.set_eq_of_length_le (Nat.le_of_not_lt inside)]

section Alteration

variable {content altered front back : Bytes} {place : Nat}

theorem DiffersOnlyAt.length_eq (differs : content.DiffersOnlyAt altered place) :
    altered.length = content.length := by
  obtain ⟨-, octet, rfl⟩ := differs
  exact List.length_set

theorem DiffersOnlyAt.lt_length (differs : content.DiffersOnlyAt altered place) :
    place < content.length := by
  obtain ⟨differ, octet, rfl⟩ := differs
  by_contra beyond
  exact differ (List.set_eq_of_length_le (Nat.le_of_not_lt beyond))

/-- What stands before the place and what stands behind it is the same. -/
theorem DiffersOnlyAt.split (differs : content.DiffersOnlyAt altered place) :
    ∃ front octet other back, octet ≠ other ∧ content = front ++ octet :: back ∧
      altered = front ++ other :: back := by
  have inside := differs.lt_length
  obtain ⟨differ, other, rfl⟩ := differs
  have parts : content = content.take place ++ content[place] :: content.drop (place + 1) := by
    rw [List.getElem_cons_drop, List.take_append_drop]
  have changed : content.set place other =
      content.take place ++ other :: content.drop (place + 1) := by
    rw [List.set_eq_take_append_cons_drop, if_pos inside]
  refine ⟨_, content[place], other, _, ?_, parts, changed⟩
  rintro rfl
  exact differ (List.set_getElem_self inside)

/-- A change in the first of two parts leaves the second one as it is. -/
theorem DiffersOnlyAt.of_lt (differs : (front ++ back).DiffersOnlyAt altered place)
    (before : place < front.length) :
    ∃ changed, altered = changed ++ back ∧ front.DiffersOnlyAt changed place := by
  obtain ⟨differ, octet, rfl⟩ := differs
  rw [List.set_append_left _ _ before] at differ ⊢
  refine ⟨_, rfl, ?_, octet, rfl⟩
  intro same
  exact differ (by rw [same])

/-- A change in the second of two parts leaves the first one as it is. -/
theorem DiffersOnlyAt.of_le (differs : (front ++ back).DiffersOnlyAt altered place)
    (behind : front.length ≤ place) :
    ∃ changed, altered = front ++ changed ∧
      back.DiffersOnlyAt changed (place - front.length) := by
  obtain ⟨differ, octet, rfl⟩ := differs
  rw [List.set_append_right _ _ behind] at differ ⊢
  refine ⟨_, rfl, ?_, octet, rfl⟩
  intro same
  exact differ (by rw [same])

end Alteration

/-- Octets are the digits of the number that is read from them. -/
theorem bigEndian_ofBigEndian (digits : Bytes) :
    bigEndian digits.length (ofBigEndian digits) = digits := by
  induction digits using List.reverseRecOn with
  | nil => rfl
  | append_singleton digits digit ih =>
      have value : ofBigEndian (digits ++ [digit]) = ofBigEndian digits * 256 + digit.toNat := by
        simp [ofBigEndian, List.foldl_append]
      have low : (ofBigEndian digits * 256 + digit.toNat) / 256 = ofBigEndian digits := by
        have := digit.toNat_lt
        omega
      have high : UInt8.ofNat (ofBigEndian digits * 256 + digit.toNat) = digit := by
        apply UInt8.toNat_inj.mp
        rw [UInt8.toNat_ofNat']
        have := digit.toNat_lt
        omega
      rw [List.length_append, List.length_singleton, bigEndian, value, low, high, ih]

end Bytes

theorem checksum_ne {content altered : Bytes} {place : Nat}
    (differs : content.DiffersOnlyAt altered place) : checksum altered ≠ checksum content := by
  obtain ⟨front, octet, other, back, differ, rfl, rfl⟩ := differs.split
  intro same
  have registers := (UInt32.xor_left_inj _).mp same
  simp only [List.foldl_append, List.foldl_cons] at registers
  exact Checksum.update_ne differ.symm _ (Checksum.foldl_update_injective back registers)

/-- If one octet of a part and the checksum behind it is changed, the two no longer agree. -/
theorem checksum_ne_of_sealed {part altered : Bytes} {place : Nat}
    (differs :
      (part ++ Bytes.bigEndian 4 (checksum part).toNat).DiffersOnlyAt altered place) :
    ∃ changed footer, altered = changed ++ footer ∧ changed.length = part.length ∧
      footer.length = 4 ∧ Bytes.ofBigEndian footer ≠ (checksum changed).toNat := by
  have bounded : (checksum part).toNat < 256 ^ 4 := (checksum part).toNat_lt
  rcases Nat.lt_or_ge place part.length with inside | behind
  · obtain ⟨changed, rfl, altered⟩ := differs.of_lt inside
    refine ⟨changed, _, rfl, altered.length_eq, Bytes.length_bigEndian 4 _, ?_⟩
    rw [Wire.Bytes.ofBigEndian_bigEndian, Nat.mod_eq_of_lt bounded]
    intro same
    exact checksum_ne altered (UInt32.toNat_inj.mp same.symm)
  · obtain ⟨footer, rfl, altered⟩ := differs.of_le behind
    have width : footer.length = 4 := altered.length_eq.trans (Bytes.length_bigEndian 4 _)
    refine ⟨part, footer, rfl, rfl, width, ?_⟩
    intro same
    have digits := Bytes.bigEndian_ofBigEndian footer
    rw [same, width] at digits
    exact altered.1 digits.symm

end ShardSync
