import ShardSync.Bytes

/-!
# UTF-8

Texts as bytes and back. Decoding accepts exactly the encodings of texts;
a rejected byte string is described by its first fault: how many leading
bytes are well formed, and how many of the following ones can be condemned
without looking further.
-/

set_option autoImplicit false

namespace ShardSync.Text.Utf8

def encode (text : String) : Bytes :=
  text.toByteArray.data.toList

/-- Where and how a byte string stops being UTF-8. -/
structure Fault where
  /-- Length of the longest well-formed beginning. -/
  validUpTo : Nat
  /-- Number of bytes that no continuation could complete, or `none` when the
  string ends inside a character. -/
  badLength? : Option Nat
deriving Repr, DecidableEq

/-- What is wrong with a byte string that is not UTF-8. -/
def Fault.message (fault : Fault) : String :=
  match fault.badLength? with
  | some length => s!"invalid utf-8 sequence of {length} bytes from index {fault.validUpTo}"
  | none => s!"incomplete utf-8 byte sequence from index {fault.validUpTo}"

/-- The admissible second bytes after a given first byte, by the number of
bytes of the character. The narrowed ranges exclude overlong forms,
surrogates and code points above the last plane. -/
def secondRange (first : UInt8) : UInt8 × UInt8 :=
  if first = 0xE0 then (0xA0, 0xBF)
  else if first = 0xED then (0x80, 0x9F)
  else if first = 0xF0 then (0x90, 0xBF)
  else if first = 0xF4 then (0x80, 0x8F)
  else (0x80, 0xBF)

/-- Number of bytes that follow a first byte, or `none` for a byte that starts
no character. -/
def following? (first : UInt8) : Option Nat :=
  if first < 0x80 then some 0
  else if 0xC2 ≤ first ∧ first ≤ 0xDF then some 1
  else if 0xE0 ≤ first ∧ first ≤ 0xEF then some 2
  else if 0xF0 ≤ first ∧ first ≤ 0xF4 then some 3
  else none

/-- Scans for the first fault. `pending` lists the ranges that the next bytes
of the current character, which began at `start`, have to lie in. -/
def scan (start index : Nat) : List (UInt8 × UInt8) → Bytes → Option Fault
  | [], [] => none
  | _ :: _, [] => some ⟨start, none⟩
  | [], byte :: rest =>
      match following? byte with
      | none => some ⟨index, some 1⟩
      | some 0 => scan (index + 1) (index + 1) [] rest
      | some (count + 1) =>
          scan index (index + 1) (secondRange byte :: List.replicate count (0x80, 0xBF)) rest
  | (low, high) :: pending, byte :: rest =>
      if low ≤ byte ∧ byte ≤ high then
        match pending with
        | [] => scan (index + 1) (index + 1) [] rest
        | _ :: _ => scan start (index + 1) pending rest
      else some ⟨start, some (index - start)⟩

/-- The first fault of a byte string, if it has one. -/
def firstFault? (bytes : Bytes) : Option Fault :=
  scan 0 0 [] bytes

/-- The text that a byte string encodes, or its first fault. -/
def decode (bytes : Bytes) : Except Fault String :=
  match String.fromUTF8? (ByteArray.mk bytes.toArray) with
  | some text => .ok text
  | none => .error ((firstFault? bytes).getD ⟨0, none⟩)

/-- Every text is read back from its encoding. -/
@[simp] theorem decode_encode (text : String) : decode (encode text) = .ok text := by
  simp [decode, encode, String.fromUTF8?, text.isValidUTF8, String.fromUTF8]

/-- A byte string that decodes is the encoding of the result. -/
theorem encode_of_decode {bytes : Bytes} {text : String} (h : decode bytes = .ok text) :
    encode text = bytes := by
  unfold decode at h
  split at h
  next found heq =>
      cases h
      simp only [String.fromUTF8?] at heq
      split at heq
      · cases heq; simp [encode, String.fromUTF8]
      · cases heq
  next => cases h

end ShardSync.Text.Utf8
