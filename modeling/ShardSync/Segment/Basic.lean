import Std.Data.ExtTreeMap
import ShardSync.Bytes
import ShardSync.Segment.Error

/-!
# Segments

A segment holds a fixed run of positions, each of them one document. Its
identity index says which positions carry an id, its mask which positions are
live, and its columns hold numbers for some of the positions. An index, a mask
or a column may be absent as a whole. Nothing in the type says that a mask or
a column has as many entries as the segment has positions.

A segment is never changed in place. Deleting a position makes a new segment
with a generation of its own.
-/

set_option autoImplicit false

namespace ShardSync

/-- A number, or none, for each position. -/
structure Column where
  cells : List (Option Int64)
deriving Repr, DecidableEq

namespace Column

/-- A column without numbers, for so many positions. -/
def blank (positions : Nat) : Column := ⟨.replicate positions none⟩

/-- The number at a position, if the position exists and has one. -/
def get? (column : Column) (position : Nat) : Option Int64 := column.cells[position]?.join

/-- A position that does not exist changes nothing. -/
def set (column : Column) (position : Nat) (value : Int64) : Column :=
  ⟨column.cells.set position (some value)⟩

/-- The numbers that there are, in the order of their positions. -/
def values (column : Column) : List Int64 := column.cells.reduceOption

end Column

/-- What is known of one document. -/
structure Document where
  id? : Option Bytes := none
  version? : Option Int64 := none
  seqNo? : Option Int64 := none
  primaryTerm? : Option Int64 := none
  softDeleted : Bool := false
  tombstone : Bool := false
deriving Repr, DecidableEq, Inhabited

structure Segment where
  generation : Generation
  /-- The number of positions, deleted or not. -/
  maxDoc : Nat
  /-- The positions that carry an id, in increasing order. -/
  ids? : Option (Std.ExtTreeMap Bytes (List Nat)) := none
  /-- Which positions are live. Without a mask all of them are. -/
  mask? : Option (List Bool) := none
  versions? : Option Column := none
  seqNos? : Option Column := none
  primaryTerms? : Option Column := none
  softDeletes? : Option Column := none
  tombstones? : Option Column := none
deriving DecidableEq

namespace Segment

/-- Whether a position exists and is not masked out. -/
def isLive (segment : Segment) (position : Nat) : Bool :=
  match segment.mask? with
  | none => position < segment.maxDoc
  | some mask => mask[position]?.getD false

def numDocs (segment : Segment) : Nat := segment.mask?.elim segment.maxDoc (·.count true)

def postings? (segment : Segment) (id : Bytes) : Option (List Nat) :=
  segment.ids?.bind (·[id]?)

/-- The highest sequence number in the segment. -/
def maxSeqNo? (segment : Segment) : Option Int64 :=
  (segment.seqNos?.elim [] (·.values)).max?

/-- The same segment with one position deleted, under a new generation. A
position that does not exist changes the generation only. -/
def withSoftDeleted (segment : Segment) (position : Nat) (generation : Generation) : Segment :=
  if position < segment.maxDoc then
    { segment with
      generation
      mask? := some ((segment.mask?.getD (.replicate segment.maxDoc true)).set position false)
      softDeletes? :=
        some ((segment.softDeletes?.getD (.blank segment.maxDoc)).set position 1) }
  else { segment with generation }

end Segment

end ShardSync
