import ShardSync.Text.Hex

/-!
# JSON values

A number is an integer when it is written without a fraction and an exponent
and is not a negative zero; any other number is kept as its digits. Objects
keep their members in order.
-/

set_option autoImplicit false

namespace ShardSync

inductive Json where
  | null
  | bool (value : Bool)
  | int (value : Int)
  /-- A number that is not an integer, as it was written. -/
  | decimal (digits : String)
  | text (value : String)
  | list (values : List Json)
  | object (members : List (String × Json))
deriving Repr, Inhabited

namespace Json

/-- One character as it stands between quotes. Only what the grammar demands
is escaped. -/
def escapeSymbol (symbol : Char) : List Char :=
  if symbol = '"' then ['\\', '"']
  else if symbol = '\\' then ['\\', '\\']
  else if symbol = '\x08' then ['\\', 'b']
  else if symbol = '\x0c' then ['\\', 'f']
  else if symbol = '\n' then ['\\', 'n']
  else if symbol = '\r' then ['\\', 'r']
  else if symbol = '\t' then ['\\', 't']
  else if symbol.toNat < 0x20 then '\\' :: 'u' :: Text.Hex.digits 4 symbol.toNat
  else [symbol]

def quote (value : String) : String :=
  String.ofList ('"' :: value.toList.flatMap escapeSymbol ++ ['"'])

mutual

/-- The value as text behind what is written already. -/
def renderBehind (written : String) : Json → String
  | .null => written ++ "null"
  | .bool true => written ++ "true"
  | .bool false => written ++ "false"
  | .int value => written ++ toString value
  | .decimal digits => written ++ digits
  | .text value => written ++ quote value
  | .list values => renderElements (written ++ "[") values ++ "]"
  | .object members => renderMembers (written ++ "\x7b") members ++ "\x7d"

def renderElements (written : String) : List Json → String
  | [] => written
  | [value] => renderBehind written value
  | value :: values => renderElements (renderBehind written value ++ ",") values

def renderMembers (written : String) : List (String × Json) → String
  | [] => written
  | [(key, value)] => renderBehind (written ++ quote key ++ ":") value
  | (key, value) :: members =>
      renderMembers (renderBehind (written ++ quote key ++ ":") value ++ ",") members

end

/-- The value as text, without blanks. -/
def render (value : Json) : String := renderBehind "" value

mutual

/-- The value with the members of every object in the order of their names. -/
def sorted : Json → Json
  | .list values => .list (sortedList values)
  | .object members =>
      .object ((sortedMembers members).mergeSort fun first second =>
        compare first.1 second.1 != .gt)
  | value => value

def sortedList : List Json → List Json
  | [] => []
  | value :: values => sorted value :: sortedList values

def sortedMembers : List (String × Json) → List (String × Json)
  | [] => []
  | (key, value) :: members => (key, sorted value) :: sortedMembers members

end

def ofNat (value : Nat) : Json := .int value

/-- A text, or null. -/
def optionalText (value : Option String) : Json :=
  value.elim .null .text

/-- The value of a member of an object: the first of that name. -/
def member? (value : Json) (key : String) : Option Json :=
  match value with
  | .object members => members.lookup key
  | _ => none

end Json

end ShardSync
