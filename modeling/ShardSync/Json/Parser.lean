import ShardSync.Json.Basic

/-!
# Reading JSON

A reader takes a beginning of the characters and returns what is left. The
nesting of values is bounded by a count that the caller derives from the
length of the text, which no text can exceed.
-/

set_option autoImplicit false

namespace ShardSync.Json

/-- The characters that may stand between the parts of a value. -/
def isBlank (symbol : Char) : Bool :=
  symbol == ' ' || symbol == '\t' || symbol == '\n' || symbol == '\r'

def skipBlanks (symbols : List Char) : List Char :=
  symbols.dropWhile isBlank

def readUnit? : List Char → Option (Nat × List Char)
  | a :: b :: c :: d :: rest => (Text.Hex.parse? [a, b, c, d]).map fun value => (value, rest)
  | _ => none

/-- The character behind a backslash and the letter for a code unit. Code units
from the surrogate range have to come in pairs. -/
def readEscapedUnit? (symbols : List Char) : Option (Char × List Char) := do
  let (unit, rest) ← readUnit? symbols
  if 0xDC00 ≤ unit ∧ unit < 0xE000 then none
  else if 0xD800 ≤ unit ∧ unit < 0xDC00 then
    match rest with
    | '\\' :: 'u' :: rest =>
        let (low, rest) ← readUnit? rest
        if 0xDC00 ≤ low ∧ low < 0xE000 then
          return (Char.ofNat (0x10000 + (unit - 0xD800) * 0x400 + (low - 0xDC00)), rest)
        else none
    | _ => none
  else return (Char.ofNat unit, rest)

def readEscape? : List Char → Option (Char × List Char)
  | '"' :: rest => some ('"', rest)
  | '\\' :: rest => some ('\\', rest)
  | '/' :: rest => some ('/', rest)
  | 'b' :: rest => some ('\x08', rest)
  | 'f' :: rest => some ('\x0c', rest)
  | 'n' :: rest => some ('\n', rest)
  | 'r' :: rest => some ('\r', rest)
  | 't' :: rest => some ('\t', rest)
  | 'u' :: rest => readEscapedUnit? rest
  | _ => none

/-- The symbols up to the closing quote, behind those already read, which are in
reverse, and the symbols behind the quote. A backslash hides the next symbol. -/
def splitQuoted? (collected : List Char) : List Char → Option (List Char × List Char)
  | [] => none
  | '"' :: rest => some (collected.reverse, rest)
  | '\\' :: symbol :: rest => splitQuoted? (symbol :: '\\' :: collected) rest
  | symbol :: rest => splitQuoted? (symbol :: collected) rest

/-- The characters that the symbols between two quotes stand for, behind those
already read, which are in reverse. Control characters have to be escaped. -/
def unescape? : Nat → List Char → List Char → Option (List Char)
  | _, collected, [] => some collected.reverse
  | 0, _, _ :: _ => none
  | fuel + 1, collected, symbol :: rest =>
      if symbol = '\\' then
        match readEscape? rest with
        | some (symbol, rest) => unescape? fuel (symbol :: collected) rest
        | none => none
      else if symbol.toNat < 0x20 then none
      else unescape? fuel (symbol :: collected) rest

/-- The rest of a text behind its opening quote. -/
def readQuoted? (symbols : List Char) : Option (String × List Char) := do
  let (inner, rest) ← splitQuoted? [] symbols
  let characters ← unescape? inner.length [] inner
  return (String.ofList characters, rest)

def natural (digits : List Char) : Nat :=
  digits.foldl (fun value digit => value * 10 + (digit.toNat - 48)) 0

def readDigits? (symbols : List Char) : Option (List Char × List Char) :=
  match symbols.takeWhile Char.isDigit with
  | [] => none
  | digits => some (digits, symbols.dropWhile Char.isDigit)

/-- A fraction, if there is one. -/
def readFraction? : List Char → Option (List Char × List Char)
  | '.' :: rest => (readDigits? rest).map fun (digits, rest) => ('.' :: digits, rest)
  | rest => some ([], rest)

/-- The digits of an exponent, with their sign. -/
def readPower? : List Char → Option (List Char × List Char)
  | '+' :: rest => (readDigits? rest).map fun (digits, rest) => ('+' :: digits, rest)
  | '-' :: rest => (readDigits? rest).map fun (digits, rest) => ('-' :: digits, rest)
  | rest => readDigits? rest

/-- An exponent, if there is one. -/
def readExponent? : List Char → Option (List Char × List Char)
  | 'e' :: rest | 'E' :: rest =>
      (readPower? rest).map fun (digits, rest) => ('e' :: digits, rest)
  | rest => some ([], rest)

/-- A number behind its sign. No digit may precede another one after a leading
zero. -/
def readNumber? (negative : Bool) (symbols : List Char) : Option (Json × List Char) := do
  let (whole, rest) ← readDigits? symbols
  if 1 < whole.length ∧ whole.head? = some '0' then none
  let (fraction, rest) ← readFraction? rest
  let (exponent, rest) ← readExponent? rest
  if fraction.isEmpty ∧ exponent.isEmpty ∧ ¬(negative ∧ natural whole = 0) then
    let value : Int := natural whole
    return (.int (if negative then -value else value), rest)
  else
    let digits := whole ++ fraction ++ exponent
    return (.decimal (String.ofList (if negative then '-' :: digits else digits)), rest)

mutual

/-- One value, after blanks. -/
def readValue? : Nat → List Char → Option (Json × List Char)
  | 0, _ => none
  | fuel + 1, symbols =>
      match skipBlanks symbols with
      | 'n' :: 'u' :: 'l' :: 'l' :: rest => some (.null, rest)
      | 't' :: 'r' :: 'u' :: 'e' :: rest => some (.bool true, rest)
      | 'f' :: 'a' :: 'l' :: 's' :: 'e' :: rest => some (.bool false, rest)
      | '"' :: rest => (readQuoted? rest).map fun (value, rest) => (.text value, rest)
      | '-' :: rest => readNumber? true rest
      | '[' :: rest =>
          match skipBlanks rest with
          | ']' :: rest => some (.list [], rest)
          | rest => readElements? fuel [] rest
      | '\x7b' :: rest =>
          match skipBlanks rest with
          | '\x7d' :: rest => some (.object [], rest)
          | rest => readMembers? fuel [] rest
      | rest => readNumber? false rest

/-- The elements of a list up to its closing bracket, behind those already
read, which are in reverse. -/
def readElements? : Nat → List Json → List Char → Option (Json × List Char)
  | 0, _, _ => none
  | fuel + 1, collected, symbols =>
      match readValue? fuel symbols with
      | none => none
      | some (value, rest) =>
          match skipBlanks rest with
          | ',' :: rest => readElements? fuel (value :: collected) rest
          | ']' :: rest => some (.list (value :: collected).reverse, rest)
          | _ => none

/-- The members of an object up to its closing brace, behind those already
read, which are in reverse. -/
def readMembers? :
    Nat → List (String × Json) → List Char → Option (Json × List Char)
  | 0, _, _ => none
  | fuel + 1, collected, symbols =>
      match skipBlanks symbols with
      | '"' :: rest =>
          match readQuoted? rest with
          | none => none
          | some (key, rest) =>
              match skipBlanks rest with
              | ':' :: rest =>
                  match readValue? fuel rest with
                  | none => none
                  | some (value, rest) =>
                      match skipBlanks rest with
                      | ',' :: rest => readMembers? fuel ((key, value) :: collected) rest
                      | '\x7d' :: rest =>
                          some (.object ((key, value) :: collected).reverse, rest)
                      | _ => none
              | _ => none
      | _ => none

end

/-- The value that a text is written for, if it is JSON. -/
def parse? (source : String) : Option Json :=
  let symbols := source.toList
  match readValue? (symbols.length + 1) symbols with
  | some (value, rest) => if (skipBlanks rest).isEmpty then some value else none
  | none => none

end ShardSync.Json
