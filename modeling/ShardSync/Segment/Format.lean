import ShardSync.Checksum
import ShardSync.Segment.Basic
import ShardSync.Wire.Reader
import ShardSync.Wire.Writer

/-!
# Segment files

A file begins with four letters and a version. The generation, the number of
positions, the five columns, the identity index and the mask follow, and at
the end the checksum of all that precedes it. A part that may be absent begins
with a truth value.

The checksum is compared before anything else is looked at.
-/

set_option autoImplicit false

namespace ShardSync.Segment

open Wire

/-- The end of the name of a file that holds a segment. -/
def extension : String := "seg"

/-- The letters at the beginning of a file. -/
def letters : Bytes := [0x50, 0x52, 0x53, 0x47]

def formatVersion : UInt8 := 1

def writeOptional {α : Type} (write : α → Bytes) : Option α → Bytes
  | none => Write.bool false
  | some value => Write.bool true ++ write value

/-- What a column holds for one position. -/
def writeCell : Option Int64 → Bytes := writeOptional Write.i64

/-- The number of positions is not written again. -/
def writeColumn (column : Column) : Bytes := column.cells.flatMap writeCell

def writeTerm (term : Bytes × List Nat) : Bytes :=
  Write.bytes term.1 ++ Write.list groups term.2

def writeIds (ids : Std.ExtTreeMap Bytes (List Nat)) : Bytes :=
  Write.list writeTerm ids.toList

/-- Eight positions of a mask. The lowest bit stands for the first of them, and
a set bit for a live one. -/
def maskByte (mask : Array Bool) (index : Nat) : UInt8 :=
  UInt8.ofNat <| Nat.foldRev 8 (fun bit _ higher =>
    (mask[8 * index + bit]?.getD false).toNat + 2 * higher) 0

/-- The number of bytes that hold so many bits. -/
def maskLength (bits : Nat) : Nat := (bits + 7) / 8

def packMask (mask : List Bool) : Bytes :=
  (List.range (maskLength mask.length)).map (maskByte mask.toArray)

def writeMask (mask : List Bool) : Bytes := Write.bytes (packMask mask)

/-- The parts of a file without its checksum, in order. -/
def writeParts (segment : Segment) : List Bytes := [
  letters, [formatVersion], Write.vlong segment.generation, groups segment.maxDoc,
  writeOptional writeColumn segment.versions?, writeOptional writeColumn segment.seqNos?,
  writeOptional writeColumn segment.primaryTerms?, writeOptional writeColumn segment.softDeletes?,
  writeOptional writeColumn segment.tombstones?, writeOptional writeIds segment.ids?,
  writeOptional writeMask segment.mask?]

def encode (segment : Segment) : Bytes :=
  let body := segment.writeParts.foldr (· ++ ·) []
  body ++ Write.u32 (checksum body)

/-- Reading that may find a segment corrupt. A failure of the fields
underneath counts as undecodable. -/
abbrev FileReader (α : Type) := ExceptT SegmentError (StateM Bytes) α

instance : MonadLift Reader FileReader := ⟨ExceptT.adapt .undecodable⟩

def readOptional {α : Type} (read : FileReader α) : FileReader (Option α) := do
  if ← Reader.bool then return some (← read) else return none

def readCell : Reader (Option Int64) := do
  if ← Reader.bool then return some (← Reader.i64) else return none

def readColumn (maxDoc : Nat) : FileReader Column := do
  return ⟨← Reader.times readCell maxDoc []⟩

/-- Positions that carry an id, behind those already read, which are in
reverse. They have to exist and to increase. -/
def readPositions (maxDoc : Nat) : Nat → List Nat → FileReader (List Nat)
  | 0, positions => return positions.reverse
  | count + 1, positions => do
      let position ← Reader.vint
      if position < 0 ∨ maxDoc ≤ position.toInt.toNat then
        throw (.corrupt s!"posting {position} out of range for max_doc {maxDoc}")
      let position := position.toInt.toNat
      if positions.head?.any (position ≤ ·) then throw (.corrupt "postings not ascending")
      readPositions maxDoc count (position :: positions)

/-- Ids and their positions. An id that comes again takes the later positions. -/
def readTerms (maxDoc : Nat) :
    Nat → Std.ExtTreeMap Bytes (List Nat) → FileReader (Std.ExtTreeMap Bytes (List Nat))
  | 0, ids => return ids
  | count + 1, ids => do
      let id ← Reader.bytes
      let positions ← readPositions maxDoc (← Reader.count "postings" 1) []
      readTerms maxDoc count (ids.insert id positions)

def readIds (maxDoc : Nat) : FileReader (Std.ExtTreeMap Bytes (List Nat)) := do
  readTerms maxDoc (← Reader.count "identity terms" 2) ∅

/-- The bits of the positions. Spare bits of the last byte do not count. -/
def unpackMask (maxDoc : Nat) (packed : Bytes) : List Bool :=
  let bytes := packed.toArray
  (List.range maxDoc).map fun position =>
    bytes[position / 8]?.any (·.toNat.testBit (position % 8))

def readMask (maxDoc : Nat) : FileReader (List Bool) := do
  let packed ← Reader.bytes
  if packed.length = maskLength maxDoc then return unpackMask maxDoc packed
  else throw (.corrupt s!"live mask has {packed.length} bytes for max_doc {maxDoc}")

/-- The number of positions, which has the limit of a list. -/
def readMaxDoc : FileReader Nat := do
  let value ← Reader.vint
  let declared := value.toInt.toNat
  if value < 0 ∨ Reader.listLimit < declared then
    throw (.undecodable (.countTooLarge "segment documents" declared Reader.listLimit))
  return declared

def readBody : FileReader Segment := do
  let found ← Reader.take letters.length
  if found ≠ letters then throw (.corrupt "bad segment magic")
  let version ← Reader.u8
  if version ≠ formatVersion then
    throw (.corrupt s!"unsupported segment format version {version}")
  let generation ← Reader.vlong
  let maxDoc ← readMaxDoc
  let versions? ← readOptional (readColumn maxDoc)
  let seqNos? ← readOptional (readColumn maxDoc)
  let primaryTerms? ← readOptional (readColumn maxDoc)
  let softDeletes? ← readOptional (readColumn maxDoc)
  let tombstones? ← readOptional (readColumn maxDoc)
  let ids? ← readOptional (readIds maxDoc)
  let mask? ← readOptional (readMask maxDoc)
  Reader.finish
  return { generation, maxDoc, ids?, mask?, versions?, seqNos?, primaryTerms?, softDeletes?,
           tombstones? }

/-- The number of bytes of the checksum at the end of a file. -/
def footerLength : Nat := 4

def decode (file : Bytes) : Except SegmentError Segment :=
  if file.length < letters.length + footerLength then .error (.corrupt "segment file too short")
  else
    let body := file.take (file.length - footerLength)
    let footer := file.drop (file.length - footerLength)
    if (checksum body).toNat ≠ Bytes.ofBigEndian footer then
      .error (.corrupt "segment footer checksum mismatch")
    else (readBody.run.run body).1

end ShardSync.Segment
