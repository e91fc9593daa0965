import Mathlib.Data.List.Dedup
import Mathlib.Data.List.Perm.Subperm
import Mathlib.Data.List.Sort
import ShardSync.Proofs.Segment.Encoding
import ShardSync.Proofs.Segment.Rows

/-!
# Resolving ids without memory

A resolver keeps lookups by generation, and a lookup keeps the last id it was asked for.
As long as a generation means one segment nothing of this can be seen: whatever was asked
before, and of whatever segments, an answer is that of a search that keeps nothing.
-/

set_option autoImplicit false

namespace ShardSync

namespace Segment

/-- The highest live position that carries an id. -/
def highestLive? (segment : Segment) (id : Bytes) : Option Nat := (segment.livePositions id).max?

/-- A search that keeps nothing, in segments that are given newest first. The first
segment that cannot be searched ends it, and so does the first that has a live position
with the id. -/
def resolve {α : Type} (id : Bytes) (hit : Segment → Nat → Except SegmentError α) :
    List Segment → Except SegmentError (Option α)
  | [] => .ok none
  | segment :: segments =>
      match Lookup.ofSegment segment with
      | .error error => .error error
      | .ok _ =>
          match segment.highestLive? id with
          | some position => (hit segment position).map some
          | none => resolve id hit segments

theorem mem_livePositions_iff {segment : Segment} (masked : segment.IsMasked) {id : Bytes}
    {position : Nat} :
    position ∈ segment.livePositions id ↔
      segment.isLive position = true ∧ position ∈ (segment.postings? id).getD [] := by
  simp only [livePositions, List.mem_filter, List.mem_range, Row.isLiveWith_iff, row,
    List.contains_iff_mem]
  exact ⟨And.right, fun live => ⟨lt_of_isLive masked live.1, live⟩⟩

theorem IsWellFormed.pairwise_postings {segment : Segment} (formed : segment.IsWellFormed)
    (id : Bytes) : ((segment.postings? id).getD []).Pairwise (· < ·) := by
  cases found : segment.postings? id with
  | none => exact .nil
  | some positions =>
      obtain ⟨ids, held, listed⟩ := Option.bind_eq_some_iff.mp found
      exact (formed.postings ids held id positions listed).1

theorem resolve_map {α β : Type} (id : Bytes) (hit : Segment → Nat → Except SegmentError α)
    (wrap : α → β) (segments : List Segment) :
    resolve id (fun segment position => (hit segment position).map wrap) segments =
      (resolve id hit segments).map (·.map wrap) := by
  induction segments with
  | nil => rfl
  | cons segment segments ih =>
      simp only [resolve, ih]
      cases Lookup.ofSegment segment with
      | error error => rfl
      | ok lookup =>
          cases segment.highestLive? id with
          | none => rfl
          | some position => cases read : hit segment position <;> simp [read, Except.map]

/-- The last live position in the index is the highest one. -/
theorem IsWellFormed.search?_eq {segment : Segment} (formed : segment.IsWellFormed) (id : Bytes) :
    Lookup.search? segment id = segment.highestLive? id := by
  have ordered := (formed.pairwise_postings id).filter segment.isLive
  have same : ((segment.postings? id).getD []).filter segment.isLive = segment.livePositions id :=
    ordered.eq_of_mem_iff (List.pairwise_lt_range.filter _) fun position => by
      rw [mem_livePositions_iff formed.masked, List.mem_filter, and_comm]
  rw [highestLive?, ← same]
  exact SegmentBuilder.getLast?_eq_max? ordered

end Segment

/-- What may be asked of a resolver. -/
inductive Inquiry where
  | version (id : Bytes) (withSeqNo : Bool)
  | seqNo (id : Bytes)
  | versionNumber (id : Bytes)

inductive Finding where
  | version (hit : VersionHit)
  | seqNo (hit : SeqNoHit)
  | versionNumber (version : Int64)
deriving Repr, DecidableEq

namespace Inquiry

def id : Inquiry → Bytes
  | .version id _ | .seqNo id | .versionNumber id => id

/-- What is reported of a position, or the value that it lacks. -/
def hit (inquiry : Inquiry) (segment : Segment) (position : Nat) : Except SegmentError Finding :=
  match inquiry with
  | .version _ withSeqNo => (Lookup.versionHit segment position withSeqNo).map .version
  | .seqNo _ => (Lookup.seqNoHit segment position).map .seqNo
  | .versionNumber _ =>
      (Lookup.versionHit segment position false).map fun hit => .versionNumber hit.version

end Inquiry

namespace Resolver

/-- The answer of a resolver, and what it keeps. The segments are given oldest first. -/
def answer (resolver : Resolver) (segments : List Segment) :
    Inquiry → Except SegmentError (Option Finding) × Resolver
  | .version id withSeqNo =>
      let (outcome, resolver) := resolver.version segments id withSeqNo
      (outcome.map (·.map .version), resolver)
  | .seqNo id =>
      let (outcome, resolver) := resolver.seqNo segments id
      (outcome.map (·.map .seqNo), resolver)
  | .versionNumber id =>
      let (outcome, resolver) := resolver.versionNumber segments id
      (outcome.map (·.map .versionNumber), resolver)

/-- The answers to inquiries about segments, and how many lookups are kept after each. -/
def answers (resolver : Resolver) :
    List (List Segment × Inquiry) → List (Except SegmentError (Option Finding) × Nat)
  | [] => []
  | (segments, inquiry) :: calls =>
      let (outcome, resolver) := resolver.answer segments inquiry
      (outcome, resolver.cached) :: resolver.answers calls

/-- A resolver that keeps lookups of known segments only, under their generations, in
which nothing false is remembered. -/
def Recalls (known : Segment → Prop) (resolver : Resolver) : Prop :=
  ∀ (generation : Generation) (lookup : Lookup), resolver.lookups[generation]? = some lookup →
    lookup.Remembers ∧ known lookup.segment ∧ lookup.segment.generation = generation ∧
      Lookup.ofSegment lookup.segment = .ok { segment := lookup.segment }

/-- Only lookups of the given generations are kept. -/
def KeptWithin (generations : List Generation) (resolver : Resolver) : Prop :=
  ∀ generation ∈ resolver.lookups, generation ∈ generations

variable {known : Segment → Prop} {resolver : Resolver} {segment : Segment} {lookup : Lookup}
  {generations : List Generation}

theorem KeptWithin.cached_le (kept : resolver.KeptWithin generations) :
    resolver.cached ≤ generations.dedup.length := by
  have distinct : resolver.lookups.keys.Nodup := Std.ExtTreeMap.nodup_keys
  have listed : resolver.lookups.keys ⊆ generations.dedup := fun generation member =>
    List.mem_dedup.mpr (kept generation (Std.ExtTreeMap.mem_keys.mp member))
  rw [cached, ← Std.ExtTreeMap.length_keys]
  exact (List.subperm_of_subset distinct listed).length_le

theorem keptWithin_evict (resolver : Resolver) (segments : List Segment) :
    (resolver.evict segments).KeptWithin (segments.map (·.generation)) := by
  intro generation member
  obtain ⟨there, present⟩ := Std.ExtTreeMap.mem_filter.mp member
  rw [Std.ExtTreeMap.getKey_eq, Std.ExtTreeSet.contains_ofList] at present
  exact List.contains_iff_mem.mp present

theorem KeptWithin.insert (kept : resolver.KeptWithin generations)
    (listed : segment.generation ∈ generations) (lookup : Lookup) :
    KeptWithin generations ⟨resolver.lookups.insert segment.generation lookup⟩ := by
  intro generation member
  rcases Std.ExtTreeMap.mem_insert.mp member with here | before
  · rwa [← Std.LawfulEqCmp.compare_eq_iff_eq.mp here]
  · exact kept generation before

theorem Recalls.evict (recalls : resolver.Recalls known) (segments : List Segment) :
    (resolver.evict segments).Recalls known := by
  intro generation lookup found
  exact recalls generation lookup (lookup_of_evict found)

theorem Recalls.insert (recalls : resolver.Recalls known) (remembers : lookup.Remembers)
    (listed : known lookup.segment)
    (opened : Lookup.ofSegment lookup.segment = .ok { segment := lookup.segment }) :
    Recalls known ⟨resolver.lookups.insert lookup.segment.generation lookup⟩ := by
  intro generation other found
  rcases lookup_of_insert found with ⟨here, rfl⟩ | before
  · exact ⟨remembers, listed, here, opened⟩
  · exact recalls generation other before

/-- The lookup of a segment is found or made unless it cannot be made, and is one of
that segment. -/
theorem Recalls.lookupFor (recalls : resolver.Recalls known)
    (identified : ∀ other, known other → other.generation = segment.generation → other = segment) :
    (∃ error, Lookup.ofSegment segment = .error error ∧
        resolver.lookupFor segment = .error error) ∨
      ∃ lookup, resolver.lookupFor segment = .ok lookup ∧ lookup.Remembers ∧
        lookup.segment = segment ∧ Lookup.ofSegment segment = .ok { segment } := by
  unfold Resolver.lookupFor
  cases kept : resolver.lookups[segment.generation]? with
  | some lookup =>
      obtain ⟨remembers, listed, generation, opened⟩ := recalls _ lookup kept
      have same := identified lookup.segment listed generation
      exact .inr ⟨lookup, rfl, remembers, same, same ▸ opened⟩
  | none =>
      cases opened : Lookup.ofSegment segment with
      | error error => exact .inl ⟨error, rfl, rfl⟩
      | ok lookup =>
          obtain rfl := Lookup.ofSegment_ok opened
          refine .inr ⟨_, rfl, fun id found? same => ?_, rfl, rfl⟩
          cases same

/-- A search through lookups that are kept answers as one that keeps nothing. -/
theorem Recalls.search {α : Type} (recalls : resolver.Recalls known)
    (kept : resolver.KeptWithin generations)
    (identified : ∀ first second, known first → known second →
      first.generation = second.generation → first = second)
    (formed : ∀ segment, known segment → segment.IsWellFormed) (id : Bytes)
    (hit : Segment → Nat → Except SegmentError α) {segments : List Segment}
    (listed : ∀ segment ∈ segments, known segment ∧ segment.generation ∈ generations) :
    let searched := resolver.search (·.report id hit) segments
    searched.1 = Segment.resolve id hit segments ∧ searched.2.Recalls known ∧
      searched.2.KeptWithin generations := by
  induction segments generalizing resolver with
  | nil => exact ⟨rfl, recalls, kept⟩
  | cons segment segments ih =>
      obtain ⟨⟨here, current⟩, later⟩ := List.forall_mem_cons.mp listed
      rcases recalls.lookupFor fun other there => identified other segment there here with
        ⟨error, refused, failed⟩ | ⟨lookup, found, remembers, rfl, opened⟩
      · simp only [Resolver.search, failed, Segment.resolve, refused]
        exact ⟨trivial, recalls, kept⟩
      · obtain ⟨searched, remembersLater, bound⟩ := remembers.find? id
        rw [(formed _ here).search?_eq] at searched
        have recallsLater := recalls.insert remembersLater (bound ▸ here) (by rw [bound, opened])
        rw [bound] at recallsLater
        have keptLater := kept.insert current (lookup.find? id).2
        simp only [Resolver.search, found, Segment.resolve, opened, Lookup.report]
        cases outcome : lookup.find? id with
        | mk found? after =>
            rw [outcome] at searched bound recallsLater keptLater
            cases found? with
            | none =>
                rw [← searched]
                exact ih recallsLater keptLater later
            | some position =>
                rw [← searched]
                dsimp only at bound ⊢
                rw [bound]
                cases hit lookup.segment position <;> exact ⟨rfl, recallsLater, keptLater⟩

/-- A version number is what is left of a version that was found. -/
theorem map_versionNumber (outcome : Except SegmentError (Option VersionHit)) :
    (outcome.map (·.map (·.version))).map (·.map Finding.versionNumber) =
      outcome.map (·.map fun hit => .versionNumber hit.version) := by
  cases outcome with
  | error error => rfl
  | ok hit? => cases hit? <;> rfl

/-- One inquiry is answered as if nothing had been kept, and what is kept then belongs to
the segments that it was about. -/
theorem Recalls.answer (recalls : resolver.Recalls known)
    (identified : ∀ first second, known first → known second →
      first.generation = second.generation → first = second)
    (formed : ∀ segment, known segment → segment.IsWellFormed) {segments : List Segment}
    (listed : ∀ segment ∈ segments, known segment) (inquiry : Inquiry) :
    let answered := resolver.answer segments inquiry
    answered.1 = Segment.resolve inquiry.id inquiry.hit segments.reverse ∧
      answered.2.Recalls known ∧ answered.2.KeptWithin (segments.map (·.generation)) := by
  have search {α : Type} (hit : Segment → Nat → Except SegmentError α) (wrap : α → Finding) :
      let searched := (resolver.evict segments).search (·.report inquiry.id hit) segments.reverse
      searched.1.map (·.map wrap) = Segment.resolve inquiry.id
          (fun segment position => (hit segment position).map wrap) segments.reverse ∧
        searched.2.Recalls known ∧ searched.2.KeptWithin (segments.map (·.generation)) := by
    obtain ⟨same, later⟩ := (recalls.evict segments).search
      (keptWithin_evict resolver segments) identified formed inquiry.id hit
      fun segment member => ⟨listed segment (List.mem_reverse.mp member),
        List.mem_map_of_mem (List.mem_reverse.mp member)⟩
    exact ⟨by rw [same, Segment.resolve_map], later⟩
  cases inquiry with
  | version id withSeqNo =>
      exact search (fun segment position => Lookup.versionHit segment position withSeqNo) .version
  | seqNo id => exact search Lookup.seqNoHit .seqNo
  | versionNumber id =>
      have found := search (fun segment position => Lookup.versionHit segment position false)
        fun hit => .versionNumber hit.version
      exact ⟨(map_versionNumber _).trans found.1, found.2⟩

theorem Recalls.answers (recalls : resolver.Recalls known)
    (identified : ∀ first second, known first → known second →
      first.generation = second.generation → first = second)
    (formed : ∀ segment, known segment → segment.IsWellFormed)
    {calls : List (List Segment × Inquiry)}
    (listed : ∀ call ∈ calls, ∀ segment ∈ call.1, known segment) :
    List.Forall₂ (fun call answer =>
        answer.1 = Segment.resolve call.2.id call.2.hit call.1.reverse ∧
          answer.2 ≤ (call.1.map (·.generation)).dedup.length)
      calls (resolver.answers calls) := by
  induction calls generalizing resolver with
  | nil => exact .nil
  | cons call calls ih =>
      obtain ⟨here, later⟩ := List.forall_mem_cons.mp listed
      obtain ⟨same, recallsLater, kept⟩ := recalls.answer identified formed here call.2
      exact .cons ⟨same, kept.cached_le⟩ (ih recallsLater later)

end Resolver

end ShardSync
