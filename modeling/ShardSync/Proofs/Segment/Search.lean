import Mathlib.Data.List.Nodup
import ShardSync.Proofs.Segment.Sealing
import ShardSync.Segment.Resolver

/-!
# Searches

A resolver that remembers nothing false finds in segments what is live in them,
and in sealed segments what is live in their builders. It stays true when segments
are added under generations that it has not seen.
-/

set_option autoImplicit false

namespace ShardSync

/-- A builder, and the generation that it is sealed under. -/
structure Part where
  generation : Generation
  builder : SegmentBuilder

namespace Part

def segment (part : Part) : Segment := part.builder.build part.generation

/-- A part with documents, all of which are complete. -/
structure IsSound (part : Part) : Prop where
  filled : part.builder.entries ≠ []
  complete : ∀ entry ∈ part.builder.entries, entry.IsComplete

theorem IsSound.ofSegment {part : Part} (sound : part.IsSound) :
    Lookup.ofSegment part.segment = .ok { segment := part.segment } :=
  SegmentBuilder.ofSegment_build sound.filled sound.complete part.generation

theorem IsSound.versionHit {part : Part} (sound : part.IsSound) {position : Nat} {entry : Pending}
    (there : part.builder.entries[position]? = some entry) (withSeqNo : Bool) :
    ∃ version seqNo primaryTerm, entry.document.version? = some version ∧
      entry.document.seqNo? = some seqNo ∧ entry.document.primaryTerm? = some primaryTerm ∧
      Lookup.versionHit part.segment position withSeqNo = .ok {
        position, version, generation := part.generation
        seqNo? := if withSeqNo then some seqNo else none
        primaryTerm? := if withSeqNo then some primaryTerm else none } := by
  have complete := sound.complete entry (List.mem_of_getElem? there)
  obtain ⟨version, knownVersion⟩ := Option.isSome_iff_exists.mp complete.version
  obtain ⟨seqNo, knownSeqNo⟩ := Option.isSome_iff_exists.mp complete.seqNo
  obtain ⟨primaryTerm, knownTerm⟩ := Option.isSome_iff_exists.mp complete.primaryTerm
  exact ⟨version, seqNo, primaryTerm, knownVersion, knownSeqNo, knownTerm,
    SegmentBuilder.versionHit_build part.generation withSeqNo there knownVersion knownSeqNo
      knownTerm⟩

end Part

namespace Lookup

/-- What is remembered of the last id is what a search finds. -/
def Remembers (lookup : Lookup) : Prop :=
  ∀ id found?, lookup.last? = some (id, found?) → found? = search? lookup.segment id

theorem Remembers.find? {lookup : Lookup} (remembers : lookup.Remembers) (id : Bytes) :
    (lookup.find? id).1 = search? lookup.segment id ∧ (lookup.find? id).2.Remembers ∧
      (lookup.find? id).2.segment = lookup.segment := by
  have searched : Remembers { lookup with last? := some (id, search? lookup.segment id) } := by
    intro other found? same
    cases same
    rfl
  unfold Lookup.find?
  cases last : lookup.last? with
  | none => exact ⟨rfl, searched, rfl⟩
  | some known =>
      obtain ⟨other, found?⟩ := known
      dsimp only
      split
      · next same => exact ⟨same ▸ remembers other found? last, remembers, rfl⟩
      · exact ⟨rfl, searched, rfl⟩

theorem ofSegment_ok {segment : Segment} {lookup : Lookup}
    (opened : ofSegment segment = .ok lookup) : lookup = { segment } := by
  unfold ofSegment at opened
  split at opened
  · cases opened
  · split at opened <;> cases opened
    rfl

end Lookup

namespace Resolver

/-- The lookups that are kept remember nothing false, belong to the given segments
if these have their generations, and are older than the next generation. -/
structure Faithful (resolver : Resolver) (segments : List Segment) (next : Generation) :
    Prop where
  remembers : ∀ (generation : Generation) (lookup : Lookup),
    resolver.lookups[generation]? = some lookup → lookup.Remembers
  bound : ∀ (generation : Generation) (lookup : Lookup),
    resolver.lookups[generation]? = some lookup →
      ∀ segment ∈ segments, segment.generation = generation → lookup.segment = segment
  older : ∀ generation ∈ resolver.lookups, generation.toNat < next.toNat

theorem faithful_empty (segments : List Segment) (next : Generation) :
    Faithful {} segments next where
  remembers generation lookup found := by simp at found
  bound generation lookup found := by simp at found
  older generation member := by simp at member

/-- Segments may leave, and new ones may come under generations that were not there
before. -/
theorem Faithful.grow {resolver : Resolver} {segments others : List Segment}
    {next later : Generation} (faithful : resolver.Faithful segments next)
    (fresh : ∀ segment ∈ others, segment ∈ segments ∨ next.toNat ≤ segment.generation.toNat)
    (least : next.toNat ≤ later.toNat) : resolver.Faithful others later where
  remembers := faithful.remembers
  bound generation lookup found segment member same := by
    rcases fresh segment member with known | beyond
    · exact faithful.bound generation lookup found segment known same
    · have older := faithful.older generation
        (Std.ExtTreeMap.mem_iff_isSome_getElem?.mpr (by rw [found]; rfl))
      rw [same] at beyond
      omega
  older generation member := Nat.lt_of_lt_of_le (faithful.older generation member) least

theorem lookup_of_evict {resolver : Resolver} {present : List Segment} {generation : Generation}
    {lookup : Lookup} (found : (resolver.evict present).lookups[generation]? = some lookup) :
    resolver.lookups[generation]? = some lookup := by
  rw [Resolver.evict, Std.ExtTreeMap.getElem?_filter'] at found
  exact (Option.filter_eq_some_iff.mp found).1

theorem lookup_of_insert {lookups : Std.ExtTreeMap Generation Lookup}
    {entered generation : Generation} {lookup other : Lookup}
    (found : (lookups.insert entered lookup)[generation]? = some other) :
    (entered = generation ∧ lookup = other) ∨ lookups[generation]? = some other := by
  rw [Std.ExtTreeMap.getElem?_insert] at found
  split at found
  · next same => exact .inl ⟨Std.LawfulEqCmp.compare_eq_iff_eq.mp same, Option.some.inj found⟩
  · exact .inr found

theorem Faithful.evict {resolver : Resolver} {segments : List Segment} {next : Generation}
    (faithful : resolver.Faithful segments next) (present : List Segment) :
    (resolver.evict present).Faithful segments next := by
  constructor
  case remembers =>
    exact fun generation lookup found => faithful.remembers _ lookup (lookup_of_evict found)
  case bound =>
    exact fun generation lookup found => faithful.bound _ lookup (lookup_of_evict found)
  case older =>
    intro generation member
    exact faithful.older generation (Std.ExtTreeMap.mem_filter.mp member).1

theorem Faithful.insert {resolver : Resolver} {segments : List Segment} {next : Generation}
    (faithful : resolver.Faithful segments next)
    (distinct : (segments.map (·.generation)).Nodup) {segment : Segment}
    (member : segment ∈ segments) (older : segment.generation.toNat < next.toNat)
    {lookup : Lookup} (remembers : lookup.Remembers) (bound : lookup.segment = segment) :
    Faithful ⟨resolver.lookups.insert segment.generation lookup⟩ segments next := by
  refine ⟨fun generation other found => ?_, fun generation other found holder listed same => ?_,
    fun generation listed => ?_⟩
  · rcases lookup_of_insert found with ⟨_, rfl⟩ | before
    · exact remembers
    · exact faithful.remembers generation other before
  · rcases lookup_of_insert found with ⟨here, rfl⟩ | before
    · rw [bound, List.inj_on_of_nodup_map distinct member listed (here.trans same.symm)]
    · exact faithful.bound generation other before holder listed same
  · rcases Std.ExtTreeMap.mem_insert.mp listed with here | before
    · rw [← Std.LawfulEqCmp.compare_eq_iff_eq.mp here]
      exact older
    · exact faithful.older generation before

/-- The lookup of a segment is one that is kept, or a new one. -/
theorem Faithful.lookupFor {resolver : Resolver} {segments : List Segment} {next : Generation}
    (faithful : resolver.Faithful segments next) {segment : Segment} (member : segment ∈ segments)
    (usable : ∃ lookup, Lookup.ofSegment segment = .ok lookup) :
    ∃ lookup, resolver.lookupFor segment = .ok lookup ∧ lookup.Remembers ∧
      lookup.segment = segment := by
  unfold Resolver.lookupFor
  cases kept : resolver.lookups[segment.generation]? with
  | some lookup =>
      exact ⟨lookup, rfl, faithful.remembers _ _ kept,
        faithful.bound _ _ kept segment member rfl⟩
  | none =>
      obtain ⟨lookup, opened⟩ := usable
      obtain rfl := Lookup.ofSegment_ok opened
      refine ⟨_, opened, fun id found? same => ?_, rfl⟩
      cases same

/-- A search passes the segments without a live position for the id, and answers with
the first that has one. -/
theorem Faithful.search {α : Type} {resolver : Resolver} {all : List Segment}
    {next : Generation} (faithful : resolver.Faithful all next)
    (distinct : (all.map (·.generation)).Nodup)
    (usable : ∀ segment ∈ all, ∃ lookup, Lookup.ofSegment segment = .ok lookup)
    (older : ∀ segment ∈ all, segment.generation.toNat < next.toNat) (id : Bytes)
    (hit : Segment → Nat → Except SegmentError α) {segments : List Segment}
    (listed : segments ⊆ all) :
    ∃ after : Resolver, after.Faithful all next ∧
      ((∀ segment ∈ segments, Lookup.search? segment id = none) ∧
          resolver.search (·.report id hit) segments = (.ok none, after) ∨
        ∃ passed segment rest position, segments = passed ++ segment :: rest ∧
          (∀ other ∈ passed, Lookup.search? other id = none) ∧
          Lookup.search? segment id = some position ∧
          resolver.search (·.report id hit) segments =
            ((hit segment position).map some, after)) := by
  induction segments generalizing resolver with
  | nil => exact ⟨resolver, faithful, .inl ⟨fun _ member => absurd member List.not_mem_nil, rfl⟩⟩
  | cons segment segments ih =>
      have member := listed List.mem_cons_self
      obtain ⟨lookup, found, remembers, bound⟩ := faithful.lookupFor member (usable segment member)
      obtain ⟨searched, remembersLater, boundLater⟩ := remembers.find? id
      rw [bound] at searched boundLater
      have later := faithful.insert distinct member (older segment member) remembersLater boundLater
      rw [Resolver.search, found]
      dsimp only
      rw [Lookup.report]
      cases outcome : lookup.find? id with
      | mk found? after =>
          rw [outcome] at searched later boundLater
          cases found? with
          | none =>
              obtain ⟨final, finalFaithful, outcome⟩ :=
                ih later (fun _ member => listed (List.mem_cons_of_mem _ member))
              refine ⟨final, finalFaithful, ?_⟩
              rcases outcome with ⟨missing, same⟩ |
                ⟨passed, holder, rest, position, split, missing, live, same⟩
              · exact .inl ⟨List.forall_mem_cons.mpr ⟨searched.symm, missing⟩, same⟩
              · exact .inr ⟨segment :: passed, holder, rest, position,
                  congrArg (segment :: ·) split,
                  List.forall_mem_cons.mpr ⟨searched.symm, missing⟩, live, same⟩
          | some position =>
              refine ⟨_, later, .inr ⟨[], segment, segments, position, rfl,
                fun _ member => absurd member List.not_mem_nil, searched.symm, ?_⟩⟩
              have here : after.segment = segment := boundLater
              dsimp only
              rw [here]
              cases hit segment position <;> rfl

/-- The lookups that are kept are faithful to the segments of the given parts. -/
structure Coherent (resolver : Resolver) (parts : List Part) (next : Generation) : Prop where
  remembers : ∀ (generation : Generation) (lookup : Lookup),
    resolver.lookups[generation]? = some lookup → lookup.Remembers
  bound : ∀ (generation : Generation) (lookup : Lookup),
    resolver.lookups[generation]? = some lookup →
      ∀ part ∈ parts, part.generation = generation → lookup.segment = part.segment
  older : ∀ generation ∈ resolver.lookups, generation.toNat < next.toNat

theorem coherent_iff {resolver : Resolver} {parts : List Part} {next : Generation} :
    resolver.Coherent parts next ↔ resolver.Faithful (parts.map Part.segment) next := by
  constructor
  · rintro ⟨remembers, bound, older⟩
    refine ⟨remembers, fun generation lookup found segment member same => ?_, older⟩
    obtain ⟨part, known, rfl⟩ := List.mem_map.mp member
    exact bound generation lookup found part known same
  · rintro ⟨remembers, bound, older⟩
    exact ⟨remembers, fun generation lookup found part member same =>
      bound generation lookup found part.segment (List.mem_map_of_mem member) same, older⟩

theorem coherent_empty (parts : List Part) (next : Generation) : Coherent {} parts next :=
  coherent_iff.mpr (faithful_empty _ next)

theorem Coherent.grow {resolver : Resolver} {parts others : List Part} {next later : Generation}
    (coherent : resolver.Coherent parts next)
    (fresh : ∀ part ∈ others, part ∈ parts ∨ next.toNat ≤ part.generation.toNat)
    (least : next.toNat ≤ later.toNat) : resolver.Coherent others later := by
  refine coherent_iff.mpr ((coherent_iff.mp coherent).grow (fun segment member => ?_) least)
  obtain ⟨part, known, rfl⟩ := List.mem_map.mp member
  exact (fresh part known).imp List.mem_map_of_mem id

theorem Coherent.evict {resolver : Resolver} {parts : List Part} {next : Generation}
    (coherent : resolver.Coherent parts next) (segments : List Segment) :
    (resolver.evict segments).Coherent parts next :=
  coherent_iff.mpr ((coherent_iff.mp coherent).evict segments)

/-- A search answers with the first part that holds a live document with the id. -/
theorem Coherent.search {α : Type} {resolver : Resolver} {all : List Part} {next : Generation}
    (coherent : resolver.Coherent all next) (distinct : (all.map (·.generation)).Nodup)
    (sound : ∀ part ∈ all, part.IsSound)
    (older : ∀ part ∈ all, part.generation.toNat < next.toNat) (id : Bytes)
    (hit : Segment → Nat → Except SegmentError α) {parts : List Part} (listed : parts ⊆ all) :
    ∃ after : Resolver, after.Coherent all next ∧
      ((∀ part ∈ parts, part.builder.findLive? id = none) ∧
          resolver.search (·.report id hit) (parts.map Part.segment) = (.ok none, after) ∨
        ∃ part ∈ parts, ∃ position, part.builder.findLive? id = some position ∧
          resolver.search (·.report id hit) (parts.map Part.segment) =
            ((hit part.segment position).map some, after)) := by
  obtain ⟨after, faithful, outcome⟩ := (coherent_iff.mp coherent).search
    (by rw [List.map_map]; exact distinct)
    (List.forall_mem_map.mpr fun part member => ⟨_, (sound part member).ofSegment⟩)
    (List.forall_mem_map.mpr older) id hit (List.map_subset _ listed)
  have searched (part : Part) : Lookup.search? part.segment id = part.builder.findLive? id :=
    SegmentBuilder.search?_build ..
  refine ⟨after, coherent_iff.mpr faithful, ?_⟩
  rcases outcome with ⟨missing, same⟩ | ⟨_, segment, _, position, split, -, found, same⟩
  · refine .inl ⟨fun part member => ?_, same⟩
    rw [← searched]
    exact missing part.segment (List.mem_map_of_mem member)
  · have member : segment ∈ parts.map Part.segment := by
      rw [split]
      exact List.mem_append_right _ List.mem_cons_self
    obtain ⟨part, known, rfl⟩ := List.mem_map.mp member
    exact .inr ⟨part, known, position, (searched part).symm.trans found, same⟩

end Resolver

end ShardSync
