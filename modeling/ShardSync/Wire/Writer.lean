import ShardSync.Text.Utf8

/-!
# Writing fields

Fixed-width integers are big-endian. Variable-length integers are written in
groups of seven bits, lowest group first, and every group but the last has
the high bit set. Texts and byte strings are preceded by their length, lists
by their number of elements.
-/

set_option autoImplicit false

namespace ShardSync.Wire

/-- A number in groups of seven bits, lowest group first. -/
def groups (value : Nat) : Bytes :=
  if value < 128 then [UInt8.ofNat value]
  else UInt8.ofNat (value % 128 + 128) :: groups (value / 128)
termination_by value

namespace Write

def u8 (value : UInt8) : Bytes := [value]

def bool (value : Bool) : Bytes := [if value then 1 else 0]

def u32 (value : UInt32) : Bytes := Bytes.bigEndian 4 value.toNat

def i32 (value : Int32) : Bytes := u32 value.toUInt32

def i64 (value : Int64) : Bytes := Bytes.bigEndian 8 value.toUInt64.toNat

/-- A 32-bit value in groups of seven bits. A negative value is written as its
unsigned bit pattern, which takes five bytes. -/
def vint (value : Int32) : Bytes := groups value.toUInt32.toNat

def vlong (value : UInt64) : Bytes := groups value.toNat

/-- A length or a count. It is written with all of its bits, so one that a
reader cannot accept never turns into another one that it does. -/
def count (value : Nat) : Bytes := groups value

def bytes (value : Bytes) : Bytes := count value.length ++ value

def text (value : String) : Bytes := bytes (Text.Utf8.encode value)

def optionalText : Option String → Bytes
  | none => bool false
  | some value => bool true ++ text value

/-- A list, element by element behind its length. -/
def list {α : Type} (item : α → Bytes) (values : List α) : Bytes :=
  count values.length ++ values.flatMap item

end Write

end ShardSync.Wire
