/-!
# Hexadecimal text

Fixed-width lower-case hexadecimal, and the value of a single digit in
either case.
-/

set_option autoImplicit false

namespace ShardSync.Text.Hex

/-- The lower-case digit for a number below sixteen. -/
def digit (value : Nat) : Char :=
  if value < 10 then Char.ofNat (48 + value) else Char.ofNat (87 + value)

/-- The `width` low hexadecimal digits of `value`, most significant first. -/
def digits : Nat → Nat → List Char
  | 0, _ => []
  | width + 1, value => digits width (value / 16) ++ [digit (value % 16)]

/-- Lower-case hexadecimal in at least the given width, as a text. -/
def padded (width value : Nat) : String :=
  String.ofList (digits width value)

/-- As many digits as the value needs, and at least one. -/
def minimal (value : Nat) : String :=
  String.ofList (Nat.toDigits 16 value)

/-- The value of a hexadecimal digit. Both cases are accepted. -/
def value? (symbol : Char) : Option Nat :=
  let code := symbol.toNat
  if 48 ≤ code ∧ code ≤ 57 then some (code - 48)
  else if 97 ≤ code ∧ code ≤ 102 then some (code - 87)
  else if 65 ≤ code ∧ code ≤ 70 then some (code - 55)
  else none

def parse? (symbols : List Char) : Option Nat :=
  symbols.foldlM (fun total symbol => (value? symbol).map (total * 16 + ·)) 0

end ShardSync.Text.Hex
