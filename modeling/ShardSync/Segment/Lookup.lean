import ShardSync.Segment.Basic

/-!
# Looking up ids in one segment

A lookup is bound to one segment and answers for its generation only. It
remembers the last id it was asked for.
-/

set_option autoImplicit false

namespace ShardSync

/-- The sequence number that stands for one that was not asked for. -/
def unassignedSeqNo : Int64 := -2

/-- The primary term that stands for one that was not asked for. -/
def unassignedPrimaryTerm : Int64 := 0

/-- A document that was found, with its version. The sequence number and the
primary term are there if they were asked for. -/
structure VersionHit where
  position : Nat
  version : Int64
  seqNo? : Option Int64
  primaryTerm? : Option Int64
  generation : Generation
deriving Repr, DecidableEq

/-- A document that was found, with its sequence number. -/
structure SeqNoHit where
  position : Nat
  seqNo : Int64
  generation : Generation
deriving Repr, DecidableEq

/-- A segment, and the last id that was looked up in it with the result. -/
structure Lookup where
  segment : Segment
  last? : Option (Bytes × Option Nat) := none

namespace Lookup

/-- Whether a segment without identities may be searched: it holds traces of
removals and no-ops only, or all of its documents are deleted. -/
def mayLackIds (segment : Segment) : Bool :=
  segment.softDeletes?.isSome && (segment.tombstones?.isSome || segment.numDocs == 0)

/-- Binds a lookup to a segment. The segment has to be consistent and to hold
versions. -/
def ofSegment (segment : Segment) : Except SegmentError Lookup :=
  if segment.ids?.isNone && !mayLackIds segment then
    .error (.inconsistent segment.generation segment.softDeletes?.isSome
      segment.tombstones?.isSome)
  else if segment.versions?.isNone then .error (.missingVersions segment.generation)
  else .ok { segment }

/-- The highest live position with the given id. -/
def search? (segment : Segment) (id : Bytes) : Option Nat :=
  ((segment.postings? id).getD [] |>.filter segment.isLive).getLast?

/-- The highest live position with the given id, from memory if the id was the
last one looked up. -/
def find? (lookup : Lookup) (id : Bytes) : Option Nat × Lookup :=
  match lookup.last? with
  | some (last, found?) =>
      if last = id then (found?, lookup)
      else
        let found? := search? lookup.segment id
        (found?, { lookup with last? := some (id, found?) })
  | none =>
      let found? := search? lookup.segment id
      (found?, { lookup with last? := some (id, found?) })

/-- The value of a column that has to be there. -/
def value (segment : Segment) (column? : Option Column) (position : Nat) (field : String) :
    Except SegmentError Int64 :=
  match column?.bind (·.get? position) with
  | some value => .ok value
  | none => .error (.missingValue segment.generation position field)

def versionHit (segment : Segment) (position : Nat) (withSeqNo : Bool) :
    Except SegmentError VersionHit := do
  let numbers? ←
    if withSeqNo then
      let seqNo ← value segment segment.seqNos? position "_seq_no"
      let primaryTerm ← value segment segment.primaryTerms? position "_primary_term"
      pure (some (seqNo, primaryTerm))
    else pure none
  let version ← value segment segment.versions? position "_version"
  return {
    position, version
    seqNo? := numbers?.map (·.1)
    primaryTerm? := numbers?.map (·.2)
    generation := segment.generation }

def seqNoHit (segment : Segment) (position : Nat) : Except SegmentError SeqNoHit := do
  let seqNo ← value segment segment.seqNos? position "_seq_no"
  return { position, seqNo, generation := segment.generation }

def report {α : Type} (lookup : Lookup) (id : Bytes)
    (hit : Segment → Nat → Except SegmentError α) : Except SegmentError (Option α) × Lookup :=
  match lookup.find? id with
  | (none, lookup) => (.ok none, lookup)
  | (some position, lookup) => ((hit lookup.segment position).map some, lookup)

def version (lookup : Lookup) (id : Bytes) (withSeqNo : Bool) :
    Except SegmentError (Option VersionHit) × Lookup :=
  lookup.report id fun segment position => versionHit segment position withSeqNo

/-- The sequence number of the document with the given id. -/
def seqNo (lookup : Lookup) (id : Bytes) : Except SegmentError (Option SeqNoHit) × Lookup :=
  lookup.report id seqNoHit

end Lookup

end ShardSync
