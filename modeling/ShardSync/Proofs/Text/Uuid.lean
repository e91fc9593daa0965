import Mathlib.Data.String.Basic
import Mathlib.Tactic.IntervalCases
import ShardSync.Text.Utf8
import ShardSync.Text.Uuid

/-!
# Identifiers as texts

An identifier is read back from its canonical text. That text is in groups of
digits, which are taken out again in the order in which they were put in.
-/

set_option autoImplicit false

namespace ShardSync.Text

namespace Hex

theorem value?_digit {value : Nat} (small : value < 16) : value? (digit value) = some value := by
  interval_cases value <;> rfl

theorem length_digits (width value : Nat) : (digits width value).length = width := by
  induction width generalizing value with
  | zero => rfl
  | succ width ih => rw [digits, List.length_append, ih, List.length_singleton]

/-- Reading digits one by one gives the number that they were written for. -/
theorem foldlM_digits (width value total : Nat) :
    (digits width value).foldlM
        (fun total symbol => (value? symbol).map (total * 16 + ·)) total =
      some (total * 16 ^ width + value % 16 ^ width) := by
  induction width generalizing value with
  | zero => simp [digits, Nat.mod_one]
  | succ width ih =>
      have last := value?_digit (Nat.mod_lt value (by decide : 0 < 16))
      have value_eq : (total * 16 ^ width + value / 16 % 16 ^ width) * 16 + value % 16 =
          total * 16 ^ (width + 1) + value % 16 ^ (width + 1) := by
        rw [Nat.pow_succ', Nat.mod_mul, Nat.add_mul, Nat.mul_right_comm, Nat.mul_assoc]
        omega
      rw [digits, List.foldlM_append, ih]
      simp only [List.foldlM_cons, List.foldlM_nil, last, Option.map_some, Option.bind_eq_bind,
        Option.bind_some, Option.pure_def, value_eq]

theorem parse?_digits (width value : Nat) :
    parse? (digits width value) = some (value % 16 ^ width) := by
  rw [parse?, foldlM_digits, Nat.zero_mul, Nat.zero_add]

end Hex

namespace Uuid

theorem ofDigits?_digits (id : Uuid) : ofDigits? (Hex.digits 32 id.value.toNat) = some id := by
  have whole : id.value.toNat % 16 ^ 32 = id.value.toNat := Nat.mod_eq_of_lt id.value.isLt
  rw [ofDigits?, if_pos (Hex.length_digits ..), Hex.parse?_digits, whole, Option.map_some,
    BitVec.ofNat_toNat, BitVec.setWidth_eq]

/-- Hyphens between the groups of an identifier are left out when it is read. -/
theorem ofGroups?_hyphens {first second third fourth last : List Char} (eight : first.length = 8)
    (four : second.length = 4) (fourToo : third.length = 4) (fourAgain : fourth.length = 4)
    (twelve : last.length = 12) :
    ofGroups? (first ++ '-' :: second ++ '-' :: third ++ '-' :: fourth ++ '-' :: last) =
      ofDigits? (first ++ second ++ third ++ fourth ++ last) := by
  unfold ofGroups?
  rw [if_pos]
  · simp [List.drop_append, List.drop_of_length_le, eight, four, fourToo, fourAgain]
  · simp [eight, four, fourToo, fourAgain, twelve]

theorem ofGroups?_symbols (id : Uuid) : ofGroups? id.symbols = some id := by
  have length := Hex.length_digits 32 id.value.toNat
  rw [← ofDigits?_digits id]
  unfold symbols
  generalize Hex.digits 32 id.value.toNat = digits at length ⊢
  have groups : digits.take 8 ++ (digits.drop 8).take 4 ++ (digits.drop 12).take 4 ++
      (digits.drop 16).take 4 ++ digits.drop 20 = digits := by
    have cut (count : Nat) :
        (digits.drop count).take 4 ++ digits.drop (count + 4) = digits.drop count := by
      rw [← List.drop_drop, List.take_append_drop]
    rw [List.append_assoc, cut 16, List.append_assoc, cut 12, List.append_assoc, cut 8,
      List.take_append_drop]
  have split := @ofGroups?_hyphens (digits.take 8) ((digits.drop 8).take 4)
    ((digits.drop 12).take 4) ((digits.drop 16).take 4) (digits.drop 20) (by simp [length])
    (by simp [length]) (by simp [length]) (by simp [length]) (by simp [length])
  rw [groups] at split
  exact split

theorem length_symbols (id : Uuid) : id.symbols.length = 36 := by
  simp [symbols, Hex.length_digits]

/-- No symbol of a text takes up more than four bytes. -/
theorem utf8Len_le (symbols : List Char) : String.utf8Len symbols ≤ 4 * symbols.length := by
  induction symbols with
  | nil => exact Nat.le_refl _
  | cons symbol symbols ih =>
      have := symbol.utf8Size_le_four
      rw [String.utf8Len_cons, List.length_cons]
      omega

theorem length_encode_ofList (symbols : List Char) :
    (Utf8.encode (String.ofList symbols)).length = String.utf8Len symbols := by
  rw [← String.utf8ByteSize_ofList]
  rfl

theorem length_encode_le (id : Uuid) : (Utf8.encode (toString id)).length ≤ 144 := by
  have text : toString id = String.ofList id.symbols := rfl
  have bounded := utf8Len_le id.symbols
  rw [length_symbols] at bounded
  rw [text, length_encode_ofList]
  exact bounded

/-- An identifier is read back from its canonical text. -/
theorem parse?_toString (id : Uuid) : parse? (toString id) = some id := by
  have symbols : (toString id).toList = id.symbols := String.toList_ofList
  unfold parse?
  rw [symbols]
  dsimp only
  rw [length_symbols]
  exact ofGroups?_symbols id

end Uuid

end ShardSync.Text
