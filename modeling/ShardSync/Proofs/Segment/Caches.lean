import ShardSync.Proofs.Segment.Search

/-!
# Caches of a search

Several segments may have one generation, and then the lookup that is kept for it is that of
the newest of them. Whatever two resolvers keep beyond that, they give the same answers.
-/

set_option autoImplicit false

namespace ShardSync

/-- The newest segment with a generation. The segments are given oldest first. -/
def Segment.newest? (segments : List Segment) (generation : Generation) : Option Segment :=
  segments.reverse.find? (·.generation == generation)

theorem Segment.newest?_append (older newer : List Segment) (generation : Generation) :
    newest? (older ++ newer) generation =
      (newest? newer generation).or (newest? older generation) := by
  simp [newest?, List.find?_append]

theorem Segment.newest?_cons (segment : Segment) (newer : List Segment)
    (generation : Generation) :
    newest? (segment :: newer) generation =
      (newest? newer generation).or (newest? [segment] generation) :=
  newest?_append [segment] newer generation

theorem Segment.newest?_eq_none {segments : List Segment} {generation : Generation}
    (missing : ∀ segment ∈ segments, segment.generation ≠ generation) :
    newest? segments generation = none := by
  simpa [newest?, List.find?_eq_none] using missing

theorem Segment.newest?_singleton_of_ne {segment : Segment} {generation : Generation}
    (apart : segment.generation ≠ generation) : newest? [segment] generation = none :=
  newest?_eq_none (List.forall_mem_singleton.mpr apart)

namespace Resolver

/-- The lookups that are kept remember nothing false, belong to segments that can be searched,
and to the newest of the given ones with their generations if there are any. -/
structure Settled (resolver : Resolver) (segments : List Segment) (next : Generation) :
    Prop where
  remembers : ∀ (generation : Generation) (lookup : Lookup),
    resolver.lookups[generation]? = some lookup → lookup.Remembers
  opened : ∀ (generation : Generation) (lookup : Lookup),
    resolver.lookups[generation]? = some lookup →
      Lookup.ofSegment lookup.segment = .ok { segment := lookup.segment }
  bound : ∀ (generation : Generation) (lookup : Lookup),
    resolver.lookups[generation]? = some lookup →
      ∀ segment, Segment.newest? segments generation = some segment → lookup.segment = segment
  older : ∀ generation ∈ resolver.lookups, generation.toNat < next.toNat

/-- There is a lookup for each of the segments. -/
def Covers (resolver : Resolver) (segments : List Segment) : Prop :=
  ∀ segment ∈ segments, segment.generation ∈ resolver.lookups

variable {resolver other : Resolver} {segments all passed : List Segment}
  {segment holder : Segment} {lookup : Lookup} {next later : Generation}

theorem settled_empty (segments : List Segment) (next : Generation) :
    Settled {} segments next where
  remembers generation lookup found := by simp at found
  opened generation lookup found := by simp at found
  bound generation lookup found := by simp at found
  older generation member := by simp at member

/-- Segments may change as long as none becomes the newest one of an old generation. -/
theorem Settled.grow (settled : resolver.Settled segments next)
    (kept : ∀ generation : Generation, generation.toNat < next.toNat → ∀ segment,
      Segment.newest? all generation = some segment →
        Segment.newest? segments generation = some segment)
    (least : next.toNat ≤ later.toNat) : resolver.Settled all later where
  remembers := settled.remembers
  opened := settled.opened
  bound generation lookup found segment newest := by
    have member := Std.ExtTreeMap.mem_iff_isSome_getElem?.mpr (Option.isSome_of_eq_some found)
    have before := kept generation (settled.older generation member) segment newest
    exact settled.bound generation lookup found segment before
  older generation member := Nat.lt_of_lt_of_le (settled.older generation member) least

theorem Settled.evict (settled : resolver.Settled segments next) (present : List Segment) :
    (resolver.evict present).Settled segments next := by
  constructor
  case remembers =>
    exact fun generation lookup found => settled.remembers _ lookup (lookup_of_evict found)
  case opened =>
    exact fun generation lookup found => settled.opened _ lookup (lookup_of_evict found)
  case bound =>
    exact fun generation lookup found => settled.bound _ lookup (lookup_of_evict found)
  case older =>
    intro generation member
    exact settled.older generation (Std.ExtTreeMap.mem_filter.mp member).1

theorem Settled.insert (settled : resolver.Settled segments next)
    (newest : Segment.newest? segments segment.generation = some holder)
    (older : segment.generation.toNat < next.toNat) (remembers : lookup.Remembers)
    (opened : Lookup.ofSegment lookup.segment = .ok { segment := lookup.segment })
    (bound : lookup.segment = holder) :
    Settled ⟨resolver.lookups.insert segment.generation lookup⟩ segments next := by
  constructor
  case remembers =>
    intro generation kept found
    rcases lookup_of_insert found with ⟨-, rfl⟩ | before
    · exact remembers
    · exact settled.remembers generation kept before
  case opened =>
    intro generation kept found
    rcases lookup_of_insert found with ⟨-, rfl⟩ | before
    · exact opened
    · exact settled.opened generation kept before
  case bound =>
    intro generation kept found other same
    rcases lookup_of_insert found with ⟨rfl, rfl⟩ | before
    · exact bound.trans (Option.some.inj (newest.symm.trans same))
    · exact settled.bound generation kept before other same
  case older =>
    intro generation member
    rcases Std.ExtTreeMap.mem_insert.mp member with here | before
    · exact Std.LawfulEqCmp.compare_eq_iff_eq.mp here ▸ older
    · exact settled.older generation before

theorem Covers.insert (covers : resolver.Covers passed) (segment : Segment) (lookup : Lookup) :
    Covers ⟨resolver.lookups.insert segment.generation lookup⟩ (passed ++ [segment]) := by
  intro other member
  rcases List.mem_append.mp member with before | here
  · exact Std.ExtTreeMap.mem_insert.mpr (.inr (covers other before))
  · simp [List.mem_singleton.mp here]

/-- The segment that is asked in the place of one: the newest with its generation. -/
theorem exists_newest {rest : List Segment} (split : all.reverse = passed ++ segment :: rest) :
    ∃ holder, Segment.newest? all segment.generation = some holder ∧
      ∀ {resolver : Resolver}, resolver.Covers passed →
        segment.generation ∉ resolver.lookups → holder = segment := by
  cases before : passed.find? (·.generation == segment.generation) with
  | some holder =>
      have newest : Segment.newest? all segment.generation = some holder := by
        simp [Segment.newest?, split, List.find?_append, before]
      have member := List.mem_of_find?_eq_some before
      have same : holder.generation = segment.generation := by
        simpa using List.find?_some before
      exact ⟨holder, newest, fun covers free => absurd (same ▸ covers holder member) free⟩
  | none =>
      have newest : Segment.newest? all segment.generation = some segment := by
        simp [Segment.newest?, split, List.find?_append, before]
      exact ⟨segment, newest, fun _ _ => rfl⟩

/-- Whether the lookup for a segment is kept or new, it is that of the newest one with its
generation, unless that cannot be searched. -/
theorem Settled.lookupFor (settled : resolver.Settled all next)
    (newest : Segment.newest? all segment.generation = some holder)
    (free : segment.generation ∉ resolver.lookups → holder = segment) :
    (∃ error, Lookup.ofSegment holder = .error error ∧
        resolver.lookupFor segment = .error error) ∨
      ∃ lookup, resolver.lookupFor segment = .ok lookup ∧ lookup.Remembers ∧
        lookup.segment = holder ∧ Lookup.ofSegment holder = .ok { segment := holder } := by
  unfold Resolver.lookupFor
  cases kept : resolver.lookups[segment.generation]? with
  | some lookup =>
      have same := settled.bound _ lookup kept holder newest
      have opened := settled.opened _ lookup kept
      exact .inr ⟨lookup, rfl, settled.remembers _ lookup kept, same, same ▸ opened⟩
  | none =>
      have missing : segment.generation ∉ resolver.lookups := by
        simp [Std.ExtTreeMap.mem_iff_isSome_getElem?, kept]
      obtain rfl := free missing
      cases opened : Lookup.ofSegment holder with
      | error error => exact .inl ⟨error, rfl, rfl⟩
      | ok lookup =>
          obtain rfl := Lookup.ofSegment_ok opened
          have remembers : Lookup.Remembers { segment := holder } := by
            intro id found? same
            cases same
          exact .inr ⟨_, rfl, remembers, rfl, rfl⟩

section Search

variable {α : Type} {rest : List Segment}

theorem Settled.search_of_error (settled : resolver.Settled all next)
    (newest : Segment.newest? all segment.generation = some holder)
    (free : segment.generation ∉ resolver.lookups → holder = segment) {error : SegmentError}
    (failed : Lookup.ofSegment holder = .error error)
    (ask : Lookup → Except SegmentError (Option α) × Lookup) :
    resolver.search ask (segment :: rest) = (.error error, resolver) := by
  rcases settled.lookupFor newest free with ⟨raised, same, found⟩ | ⟨_, _, _, _, opened⟩
  · cases failed.symm.trans same
    simp [Resolver.search, found]
  · cases failed.symm.trans opened

/-- A segment that can be asked ends the search if it has a live position for the id. -/
theorem Settled.search_of_ok (settled : resolver.Settled all next)
    (covers : resolver.Covers passed)
    (newest : Segment.newest? all segment.generation = some holder)
    (free : segment.generation ∉ resolver.lookups → holder = segment)
    (older : segment.generation.toNat < next.toNat)
    (opened : Lookup.ofSegment holder = .ok lookup) (id : Bytes)
    (hit : Segment → Nat → Except SegmentError α) :
    ∃ after : Resolver, after.Settled all next ∧ after.Covers (passed ++ [segment]) ∧
      resolver.search (·.report id hit) (segment :: rest) =
        match Lookup.search? holder id with
        | some position => ((hit holder position).map some, after)
        | none => after.search (·.report id hit) rest := by
  rcases settled.lookupFor newest free with ⟨_, failed, _⟩ | ⟨kept, found, remembers, same, _⟩
  · cases opened.symm.trans failed
  · obtain ⟨searched, remembersLater, boundLater⟩ := remembers.find? id
    simp only [same] at searched boundLater
    obtain rfl := Lookup.ofSegment_ok opened
    have inserted := settled.insert newest older remembersLater (boundLater ▸ opened) boundLater
    exists ⟨resolver.lookups.insert segment.generation (kept.find? id).2⟩
    constructor
    · exact inserted
    constructor
    · exact covers.insert segment _
    · simp only [Resolver.search, found, Lookup.report, ← searched]
      cases answered : kept.find? id with
      | mk found? lookup =>
          simp only [answered] at boundLater
          cases found? with
          | none => rfl
          | some position => cases read : hit holder position <;> simp [boundLater, read, Except.map]

/-- Two resolvers give the same answer, and stay as they should be. -/
theorem Settled.search (settled : resolver.Settled all next) (settledOther : other.Settled all next)
    (covers : resolver.Covers passed) (coversOther : other.Covers passed)
    (older : ∀ segment ∈ all, segment.generation.toNat < next.toNat) (id : Bytes)
    (hit : Segment → Nat → Except SegmentError α) (split : all.reverse = passed ++ rest) :
    ∃ outcome, ∃ after afterOther : Resolver,
      resolver.search (·.report id hit) rest = (outcome, after) ∧
        other.search (·.report id hit) rest = (outcome, afterOther) ∧
          after.Settled all next ∧ afterOther.Settled all next := by
  -- Over the segments that have not been asked; those that have been are all kept.
  induction rest generalizing resolver other passed with
  | nil => exact ⟨.ok none, resolver, other, rfl, rfl, settled, settledOther⟩
  | cons segment rest ih =>
      have listed : segment ∈ all.reverse := by simp [split]
      have older := older segment (List.mem_reverse.mp listed)
      obtain ⟨holder, newest, free⟩ := exists_newest split
      cases opened : Lookup.ofSegment holder with
      | error error =>
          exact ⟨_, _, _, settled.search_of_error newest (free covers) opened _,
            settledOther.search_of_error newest (free coversOther) opened _, settled, settledOther⟩
      | ok lookup =>
          obtain ⟨after, settledAfter, coversAfter, first⟩ :=
            settled.search_of_ok covers newest (free covers) older opened id hit
          obtain ⟨afterOther, settledAfterOther, coversAfterOther, second⟩ :=
            settledOther.search_of_ok coversOther newest (free coversOther) older opened id hit
          cases found : Lookup.search? holder id with
          | some position =>
              simp only [found] at first second
              exact ⟨_, _, _, first, second, settledAfter, settledAfterOther⟩
          | none =>
              simp only [found] at first second
              simp only [first, second]
              exact ih settledAfter settledAfterOther coversAfter coversAfterOther (by simp [split])

end Search

theorem Settled.version (settled : resolver.Settled all next) (settledOther : other.Settled all next)
    (older : ∀ segment ∈ all, segment.generation.toNat < next.toNat) (id : Bytes)
    (withSeqNo : Bool) :
    ∃ outcome, ∃ after afterOther : Resolver,
      resolver.version all id withSeqNo = (outcome, after) ∧
        other.version all id withSeqNo = (outcome, afterOther) ∧
          after.Settled all next ∧ afterOther.Settled all next := by
  have none (resolver : Resolver) : resolver.Covers [] := fun _ member => nomatch member
  exact (settled.evict all).search (settledOther.evict all) (none _) (none _) older id
    (fun segment position => Lookup.versionHit segment position withSeqNo) rfl

end Resolver

end ShardSync
