import ShardSync.Segment.Basic

/-!
# Building segments

A builder collects documents until they are sealed into a segment. A column,
the identity index or the mask is left out if it would be empty.
-/

set_option autoImplicit false

namespace ShardSync

/-- A collected document, and whether it is still live. -/
structure Pending where
  document : Document
  isLive : Bool
deriving Repr, DecidableEq, Inhabited

/-- The documents collected so far, by position. -/
structure SegmentBuilder where
  entries : List Pending := []
deriving Repr, DecidableEq

namespace SegmentBuilder

def size (builder : SegmentBuilder) : Nat := builder.entries.length

/-- Appends a document. It is live unless it is marked as deleted. Its position
is the former size. -/
def add (builder : SegmentBuilder) (document : Document) : SegmentBuilder :=
  ⟨builder.entries ++ [⟨document, !document.softDeleted⟩]⟩

/-- A live document with all of its numbers. -/
def liveDocument (id : Bytes) (version seqNo primaryTerm : Int64) : Document where
  id? := some id
  version? := some version
  seqNo? := some seqNo
  primaryTerm? := some primaryTerm

/-- The trace of a removal. It keeps the id and is deleted from the start, so
that no search by id finds it. -/
def deleteTombstone (id : Bytes) (version seqNo primaryTerm : Int64) : Document where
  id? := some id
  version? := some version
  seqNo? := some seqNo
  primaryTerm? := some primaryTerm
  softDeleted := true
  tombstone := true

/-- The trace of an operation without effect. It has no id. -/
def noOpTombstone (seqNo primaryTerm : Int64) : Document where
  version? := some 1
  seqNo? := some seqNo
  primaryTerm? := some primaryTerm
  softDeleted := true
  tombstone := true

def softDelete (builder : SegmentBuilder) (position : Nat) : SegmentBuilder :=
  ⟨builder.entries.modify position fun entry =>
    ⟨{ entry.document with softDeleted := true }, false⟩⟩

/-- Masks a position out without marking the document. -/
def hardDelete (builder : SegmentBuilder) (position : Nat) : SegmentBuilder :=
  ⟨builder.entries.modify position fun entry => { entry with isLive := false }⟩

/-- The last live position with the given id. -/
def findLive? (builder : SegmentBuilder) (id : Bytes) : Option Nat :=
  (builder.entries.zipIdx.reverse.find? fun (entry, _) =>
    entry.isLive && entry.document.id? == some id).map (·.2)

def document? (builder : SegmentBuilder) (position : Nat) : Option Document :=
  builder.entries[position]?.map (·.document)

/-- The column of a field, unless no document has the field. -/
def column? (builder : SegmentBuilder) (field : Document → Option Int64) : Option Column :=
  let cells := builder.entries.map (field ·.document)
  if cells.any Option.isSome then some ⟨cells⟩ else none

/-- Enters a position in front of the positions of an id. -/
def post (ids : Std.ExtTreeMap Bytes (List Nat)) (id : Bytes) (position : Nat) :
    Std.ExtTreeMap Bytes (List Nat) :=
  ids.insert id (position :: ids.getD id [])

/-- The identity index, unless no document has an id. -/
def ids? (builder : SegmentBuilder) : Option (Std.ExtTreeMap Bytes (List Nat)) :=
  let named := builder.entries.zipIdx.filterMap fun (entry, position) =>
    entry.document.id?.map fun id => (id, position)
  if named.isEmpty then none
  else some (named.foldr (fun (id, position) ids => post ids id position) ∅)

/-- The mask, unless all documents are live. -/
def mask? (builder : SegmentBuilder) : Option (List Bool) :=
  let mask := builder.entries.map (·.isLive)
  if mask.all id then none else some mask

def mark (present : Bool) : Option Int64 := if present then some 1 else none

def build (builder : SegmentBuilder) (generation : Generation) : Segment where
  generation
  maxDoc := builder.size
  ids? := builder.ids?
  mask? := builder.mask?
  versions? := builder.column? (·.version?)
  seqNos? := builder.column? (·.seqNo?)
  primaryTerms? := builder.column? (·.primaryTerm?)
  softDeletes? := builder.column? fun document => mark document.softDeleted
  tombstones? := builder.column? fun document => mark document.tombstone

end SegmentBuilder

end ShardSync
