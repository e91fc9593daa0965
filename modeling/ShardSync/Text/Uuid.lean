import ShardSync.Text.Hex

/-!
# Universally unique identifiers

A 128-bit number with a canonical text of thirty-two lower-case digits in
groups of 8, 4, 4, 4 and 12. Reading also accepts the digits in either case,
without hyphens, in braces, or behind the URN scheme.
-/

set_option autoImplicit false

namespace ShardSync.Text

structure Uuid where
  value : BitVec 128
deriving Repr, DecidableEq

namespace Uuid

def zero : Uuid := ⟨0⟩

def symbols (id : Uuid) : List Char :=
  let digits := Hex.digits 32 id.value.toNat
  digits.take 8 ++ '-' :: (digits.drop 8).take 4 ++ '-' :: (digits.drop 12).take 4 ++
    '-' :: (digits.drop 16).take 4 ++ '-' :: digits.drop 20

protected def toString (id : Uuid) : String :=
  String.ofList id.symbols

def ofDigits? (symbols : List Char) : Option Uuid :=
  if symbols.length = 32 then (Hex.parse? symbols).map fun value => ⟨BitVec.ofNat 128 value⟩
  else none

def ofGroups? (symbols : List Char) : Option Uuid :=
  if symbols.length = 36 ∧ symbols[8]? = some '-' ∧ symbols[13]? = some '-' ∧
      symbols[18]? = some '-' ∧ symbols[23]? = some '-' then
    ofDigits? (symbols.take 8 ++ (symbols.drop 9).take 4 ++ (symbols.drop 14).take 4 ++
      (symbols.drop 19).take 4 ++ symbols.drop 24)
  else none

/-- The URN scheme of these identifiers. It is read without regard to case. -/
def scheme : List Char := "urn:uuid:".toList

def parse? (text : String) : Option Uuid :=
  let symbols := text.toList
  match symbols.length with
  | 32 => ofDigits? symbols
  | 36 => ofGroups? symbols
  | 38 =>
      if symbols.head? = some '\x7b' ∧ symbols.getLast? = some '\x7d' then
        ofGroups? ((symbols.drop 1).take 36)
      else none
  | 45 =>
      if (symbols.take 9).map Char.toLower = scheme then ofGroups? (symbols.drop 9)
      else none
  | _ => none

end Uuid

instance : ToString Uuid := ⟨Uuid.toString⟩

end ShardSync.Text
