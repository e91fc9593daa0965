import ShardSync.Checksum

/-!
# File contents

The content of a file is a run of octets. A file that was made with a length
and is being filled consists mostly of zeros that nobody has written. A content
keeps such a stretch as its length, so that the room it takes up depends on what
was written and not on how long the file is.

`toBytes` is what a content stands for. The main statements say that every
operation on contents does to the octets what its namesake on byte strings does.
-/

set_option autoImplicit false

namespace ShardSync

/-- A part of a file: octets that were written, or zeros that were not. -/
inductive Stretch where
  | written (data : Bytes)
  | blank (length : Nat)
deriving Repr, DecidableEq

namespace Stretch

def toBytes : Stretch → Bytes
  | .written data => data
  | .blank length => List.replicate length 0

def length : Stretch → Nat
  | .written data => data.length
  | .blank length => length

def take (count : Nat) : Stretch → Stretch
  | .written data => .written (data.take count)
  | .blank length => .blank (min count length)

def drop (count : Nat) : Stretch → Stretch
  | .written data => .written (data.drop count)
  | .blank length => .blank (length - count)

def checksumStep (register : UInt32) : Stretch → UInt32
  | .written data => data.foldl Checksum.update register
  | .blank length => length.repeat (Checksum.update · 0) register

@[simp] theorem length_toBytes (part : Stretch) : part.toBytes.length = part.length := by
  cases part <;> simp [toBytes, length]

@[simp] theorem toBytes_take (count : Nat) (part : Stretch) :
    (part.take count).toBytes = part.toBytes.take count := by
  cases part <;> simp [toBytes, take]

@[simp] theorem toBytes_drop (count : Nat) (part : Stretch) :
    (part.drop count).toBytes = part.toBytes.drop count := by
  cases part <;> simp [toBytes, drop]

theorem checksumStep_eq (register : UInt32) (part : Stretch) :
    part.checksumStep register = part.toBytes.foldl Checksum.update register := by
  cases part with
  | written data => rfl
  | blank length =>
      simp only [checksumStep, toBytes]
      induction length generalizing register with
      | zero => rfl
      | succ length ih =>
          rw [List.replicate_succ', List.foldl_append, ← ih]
          rfl

end Stretch

/-- The content of a file, part by part. -/
structure Content where
  parts : List Stretch := []
deriving Repr, DecidableEq

namespace Content

def toBytes (content : Content) : Bytes := content.parts.flatMap Stretch.toBytes

def ofBytes (data : Bytes) : Content := ⟨[.written data]⟩

/-- A content of the given length that has not been written. -/
def blank (length : Nat) : Content := ⟨[.blank length]⟩

def length (content : Content) : Nat :=
  content.parts.foldr (fun part rest => part.length + rest) 0

def takeParts : Nat → List Stretch → List Stretch
  | _, [] => []
  | count, part :: parts =>
      if part.length ≤ count then part :: takeParts (count - part.length) parts
      else if count = 0 then []
      else [part.take count]

/-- The parts behind the first `count` octets. -/
def dropParts : Nat → List Stretch → List Stretch
  | _, [] => []
  | count, part :: parts =>
      if part.length ≤ count then dropParts (count - part.length) parts
      else part.drop count :: parts

/-- The octets from `position` on, at most `count` of them. -/
def slice (content : Content) (position count : Nat) : Bytes :=
  (takeParts count (dropParts position content.parts)).flatMap Stretch.toBytes

/-- Replaces the octets from `position` on by `data`. A gap before `position`
is left blank, and what follows the replaced part is kept. Writing nothing
leaves the content as it is. -/
def overwrite (content : Content) (position : Nat) (data : Bytes) : Content :=
  if data.isEmpty then content
  else
    let gap := position - content.length
    ⟨takeParts position content.parts ++ (if gap = 0 then [] else [.blank gap]) ++
      .written data :: dropParts (position + data.length) content.parts⟩

def checksum (content : Content) : UInt32 :=
  content.parts.foldl Stretch.checksumStep 0xFFFFFFFF ^^^ 0xFFFFFFFF

@[simp] theorem toBytes_ofBytes (data : Bytes) : (ofBytes data).toBytes = data := by
  simp [ofBytes, toBytes, Stretch.toBytes]

@[simp] theorem toBytes_blank (length : Nat) :
    (blank length).toBytes = List.replicate length 0 := by
  simp [blank, toBytes, Stretch.toBytes]

@[simp] theorem length_toBytes (content : Content) :
    content.toBytes.length = content.length := by
  obtain ⟨parts⟩ := content
  induction parts with
  | nil => rfl
  | cons part parts ih =>
      simp only [toBytes, length] at ih ⊢
      simp [ih]

theorem flatMap_takeParts (count : Nat) (parts : List Stretch) :
    (takeParts count parts).flatMap Stretch.toBytes =
      (parts.flatMap Stretch.toBytes).take count := by
  induction parts generalizing count with
  | nil => simp [takeParts]
  | cons part parts ih =>
      simp only [takeParts]
      split
      · next whole => simp [ih, List.take_append, List.take_of_length_le, whole]
      · next partly =>
          have behind : count - part.length = 0 := by omega
          split
          · next none => simp [none]
          · simp [List.take_append, behind]

theorem flatMap_dropParts (count : Nat) (parts : List Stretch) :
    (dropParts count parts).flatMap Stretch.toBytes =
      (parts.flatMap Stretch.toBytes).drop count := by
  induction parts generalizing count with
  | nil => simp [dropParts]
  | cons part parts ih =>
      simp only [dropParts]
      split
      · next whole => simp [ih, List.drop_append, List.drop_eq_nil_of_le, whole]
      · next partly =>
          have behind : count - part.length = 0 := by omega
          simp [List.drop_append, behind]

@[simp] theorem slice_eq (content : Content) (position count : Nat) :
    content.slice position count = content.toBytes.slice position count := by
  simp [slice, Bytes.slice, toBytes, flatMap_takeParts, flatMap_dropParts]

@[simp] theorem toBytes_overwrite (content : Content) (position : Nat) (data : Bytes) :
    (content.overwrite position data).toBytes = content.toBytes.overwrite position data := by
  simp only [overwrite, Bytes.overwrite]
  split
  · rfl
  · simp only [Bytes.resize, length_toBytes]
    simp only [toBytes, List.flatMap_append, List.flatMap_cons, flatMap_takeParts,
      flatMap_dropParts]
    split
    · next closed => simp [closed, Stretch.toBytes]
    · simp [Stretch.toBytes]

@[simp] theorem checksum_eq (content : Content) :
    content.checksum = ShardSync.checksum content.toBytes := by
  obtain ⟨parts⟩ := content
  have step (register : UInt32) : parts.foldl Stretch.checksumStep register =
      (parts.flatMap Stretch.toBytes).foldl Checksum.update register := by
    induction parts generalizing register with
    | nil => rfl
    | cons part parts ih => simp [ih, Stretch.checksumStep_eq, List.foldl_append]
  simp [checksum, ShardSync.checksum, toBytes, step]

end Content

end ShardSync
