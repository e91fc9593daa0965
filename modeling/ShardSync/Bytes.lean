/-!
# Byte strings

A byte string is a list of octets. Fixed-width words are stored most
significant octet first; `ofBigEndian` reads such a run back as a number.
-/

set_option autoImplicit false

namespace ShardSync

/-- The contents of a file, a message or a part of either. -/
abbrev Bytes := List UInt8

namespace Bytes

/-- The `width` low base-256 digits of `value`, most significant first. -/
def bigEndian : Nat → Nat → Bytes
  | 0, _ => []
  | width + 1, value => bigEndian width (value / 256) ++ [UInt8.ofNat value]

/-- The number whose base-256 digits are the given octets. -/
def ofBigEndian (digits : Bytes) : Nat :=
  digits.foldl (fun value digit => value * 256 + digit.toNat) 0

@[simp] theorem length_bigEndian (width value : Nat) : (bigEndian width value).length = width := by
  induction width generalizing value with
  | zero => rfl
  | succ width ih => simp [bigEndian, ih]

/-- Whether there are at least `count` octets. No more than these are looked at. -/
def hasAtLeast : Bytes → Nat → Bool
  | _, 0 => true
  | [], _ + 1 => false
  | _ :: rest, count + 1 => hasAtLeast rest count

@[simp] theorem hasAtLeast_iff {content : Bytes} {count : Nat} :
    content.hasAtLeast count = true ↔ count ≤ content.length := by
  induction content generalizing count with
  | nil => cases count <;> simp [hasAtLeast]
  | cons octet rest ih => cases count <;> simp [hasAtLeast, ih]

/-- The octets from `position` on, at most `count` of them. -/
def slice (content : Bytes) (position count : Nat) : Bytes :=
  (content.drop position).take count

/-- Exactly `length` octets: cut off at the end, or filled up with zeros. -/
def resize (content : Bytes) (length : Nat) : Bytes :=
  content.take length ++ List.replicate (length - content.length) 0

@[simp] theorem length_resize (content : Bytes) (length : Nat) :
    (content.resize length).length = length := by
  simp [resize]; omega

/-- Replaces the octets from `position` on by `data`. A gap before `position`
is filled with zeros, and what follows the replaced part is kept. Writing
nothing leaves the content as it is. -/
def overwrite (content : Bytes) (position : Nat) (data : Bytes) : Bytes :=
  if data.isEmpty then content
  else content.resize position ++ data ++ content.drop (position + data.length)

end Bytes

end ShardSync
