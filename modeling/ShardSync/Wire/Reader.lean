import ShardSync.Text.Utf8
import ShardSync.Wire.Error

/-!
# Reading fields

A reader consumes a beginning of the bytes that are left. The state after a
failure is kept as well: a failed reader has consumed what it looked at
before it failed, so the position of the failure is known.

Every length and count is compared with the number of bytes left before any
element is read.
-/

set_option autoImplicit false

namespace ShardSync.Wire

/-- A computation that consumes bytes from the front of a stream. -/
abbrev Reader (α : Type) := ExceptT DecodeError (StateM Bytes) α

namespace Reader

variable {α : Type}

/-- The outcome on the given bytes, and the bytes that are left after it. -/
def start (reader : Reader α) (input : Bytes) : Except DecodeError α × Bytes :=
  reader.run.run input

def decode (reader : Reader α) (input : Bytes) : Except DecodeError α :=
  match reader.start input with
  | (.error error, _) => .error error
  | (.ok value, []) => .ok value
  | (.ok _, rest) => .error (.trailingBytes rest.length)

def remaining : Reader Nat := do
  return (← get).length

/-- Succeeds at the end of the input only. -/
def finish : Reader Unit := do
  match ← remaining with
  | 0 => return
  | count => throw (.trailingBytes count)

/-- The next `count` bytes. Nothing is consumed if fewer are left. -/
def take (count : Nat) : Reader Bytes := do
  let input ← get
  let front := input.take count
  if front.length = count then
    set (input.drop count)
    return front
  else
    throw (.unexpectedEnd count input.length)

def u8 : Reader UInt8 := do
  match ← get with
  | [] => throw (.unexpectedEnd 1 0)
  | byte :: rest =>
      set rest
      return byte

/-- A truth value is a single byte, zero or one. -/
def bool : Reader Bool := do
  let byte ← u8
  if byte = 0 then return false
  else if byte = 1 then return true
  else throw (.invalidData s!"boolean byte must be 0 or 1, got {byte}")

def u32 : Reader UInt32 := do
  return UInt32.ofNat (Bytes.ofBigEndian (← take 4))

def i32 : Reader Int32 := do
  return (← u32).toInt32

def i64 : Reader Int64 := do
  return (UInt64.ofNat (Bytes.ofBigEndian (← take 8))).toInt64

/-- A number in at most `limit` groups of seven bits, or `none` if the last of
them announces a further one. -/
def groups? : Nat → Reader (Option Nat)
  | 0 => return none
  | limit + 1 => do
      let byte ← u8
      if byte < 128 then return some byte.toNat
      else
        let high? ← groups? limit
        return high?.map fun high => byte.toNat - 128 + 128 * high

/-- A 32-bit value in at most five groups of seven bits. -/
def vint : Reader Int32 := do
  match ← groups? 5 with
  | some value =>
      if value < UInt32.size then return (UInt32.ofNat value).toInt32
      else throw (.varintTooLong 5)
  | none => throw (.varintTooLong 5)

/-- A 64-bit value in at most ten groups of seven bits. The tenth group
contributes its lowest bit only. -/
def vlong : Reader UInt64 := do
  match ← groups? 10 with
  | some value => return UInt64.ofNat value
  | none => throw (.varintTooLong 10)

/-- A length or count, which has to have its sign bit clear. -/
def natural : Reader Nat := do
  let value ← vint
  if value < 0 then throw (.negativeLength value.toInt)
  else return value.toInt.toNat

/-- The length of a run of bytes, which have to be there. -/
def length : Reader Nat := do
  let length ← natural
  let input ← get
  if input.hasAtLeast length then return length
  else throw (.unexpectedEnd length input.length)

/-- The largest number of elements of a list. -/
def listLimit : Nat := 0x1000000

/-- The number of elements of a list, given the least number of bytes of an
element. The elements have to be there, and there are not too many of them. -/
def count (what : String) (least : Nat) : Reader Nat := do
  let declared ← natural
  let input ← get
  let size := max least 1
  if declared ≤ listLimit && input.hasAtLeast (declared * size) then return declared
  else throw (.countTooLarge what declared (min (input.length / size) listLimit))

def bytes : Reader Bytes := do
  take (← length)

def text : Reader String := do
  match Text.Utf8.decode (← bytes) with
  | .ok value => return value
  | .error fault => throw (.invalidUtf8 fault.message)

def optionalText : Reader (Option String) := do
  if ← bool then return some (← text)
  else return none

/-- A given number of values, one after the other, behind those already read. -/
def times (item : Reader α) : Nat → List α → Reader (List α)
  | 0, collected => return collected.reverse
  | count + 1, collected => do
      let value ← item
      times item count (value :: collected)

/-- A list of elements that take up at least `least` bytes each. -/
def list (what : String) (least : Nat) (item : Reader α) : Reader (List α) := do
  times item (← count what least) []

end Reader

end ShardSync.Wire
