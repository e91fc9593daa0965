import Std.Data.ExtTreeSet
import ShardSync.Segment.Lookup

/-!
# Looking up ids in many segments

Segments are searched from the newest to the oldest, and the first that holds
a live document with the id answers. The lookups that were bound on the way
are kept by generation, and dropped when their generation has left the list.
-/

set_option autoImplicit false

namespace ShardSync

/-- The lookups bound so far, by the generation of their segments. -/
structure Resolver where
  lookups : Std.ExtTreeMap Generation Lookup := ∅

namespace Resolver

def cached (resolver : Resolver) : Nat := resolver.lookups.size

def evict (resolver : Resolver) (segments : List Segment) : Resolver :=
  let present : Std.ExtTreeSet Generation := .ofList (segments.map (·.generation))
  ⟨resolver.lookups.filter fun generation _ => present.contains generation⟩

/-- The lookup for a segment: the one that is kept, or a new one. -/
def lookupFor (resolver : Resolver) (segment : Segment) : Except SegmentError Lookup :=
  match resolver.lookups[segment.generation]? with
  | some lookup => .ok lookup
  | none => Lookup.ofSegment segment

/-- Asks the segments in the given order, up to the first that answers. -/
def search {α : Type} (ask : Lookup → Except SegmentError (Option α) × Lookup)
    (resolver : Resolver) : List Segment → Except SegmentError (Option α) × Resolver
  | [] => (.ok none, resolver)
  | segment :: segments =>
      match resolver.lookupFor segment with
      | .error error => (.error error, resolver)
      | .ok lookup =>
          let (outcome, lookup) := ask lookup
          let resolver := ⟨resolver.lookups.insert segment.generation lookup⟩
          match outcome with
          | .ok none => search ask resolver segments
          | outcome => (outcome, resolver)

/-- The version of the document with the given id. The segments are given
oldest first. -/
def version (resolver : Resolver) (segments : List Segment) (id : Bytes) (withSeqNo : Bool) :
    Except SegmentError (Option VersionHit) × Resolver :=
  (resolver.evict segments).search (·.version id withSeqNo) segments.reverse

/-- The sequence number of the document with the given id. The segments are
given oldest first. -/
def seqNo (resolver : Resolver) (segments : List Segment) (id : Bytes) :
    Except SegmentError (Option SeqNoHit) × Resolver :=
  (resolver.evict segments).search (·.seqNo id) segments.reverse

/-- Only the version of the document with the given id. -/
def versionNumber (resolver : Resolver) (segments : List Segment) (id : Bytes) :
    Except SegmentError (Option Int64) × Resolver :=
  let (outcome, resolver) := resolver.version segments id false
  (outcome.map (·.map (·.version)), resolver)

end Resolver

end ShardSync
