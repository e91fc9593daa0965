import ShardSync.Proofs.Engine.Calls

/-!
# Which segment a generation means

An engine may be used in any way: it is given segments, applies operations, refreshes and
searches, and each of that may fail. All the time its cache and its removals act on the
segment that a search finds, as long as the segments of each list that it takes have
generations of their own. It does not look at that when it takes them.
-/

set_option autoImplicit false

namespace ShardSync.Engine

inductive Use where
  | prepare (segments : List Segment)
  | call (call : Call)

/-- What is left of an engine after a use of it, which may have failed. -/
def use (engine : Engine) : Use → Engine
  | .prepare segments => (engine.prepare segments).toOption.getD engine
  | .call (.apply operation) => (engine.apply operation).2
  | .call .refresh => engine.refresh.toOption.getD engine
  | .call (.get id) => (engine.get id).2

/-- The states of an engine between its uses. -/
def visits (engine : Engine) : List Use → List Engine
  | [] => [engine]
  | use :: uses => engine :: (engine.use use).visits uses

/-- The segments that are taken, if a use is to give some to the engine. -/
def taken (engine : Engine) : Use → Option (List Segment)
  | .prepare segments => (engine.prepare segments).toOption.map fun _ => segments
  | .call _ => none

/-- The lists of segments that an engine takes. -/
def accepted (engine : Engine) : List Use → List (List Segment)
  | [] => []
  | use :: uses => (engine.taken use).toList ++ (engine.use use).accepted uses

/-- Generations mean one segment each: a lookup that is kept is the one of the segment
with its generation, a search reports the newest segment with a live position for the
id, and a removal replaces just that segment. -/
structure TellsApart (engine : Engine) : Prop where
  distinct : (engine.segments.map (·.generation)).Nodup
  cached : ∀ segment ∈ engine.segments, ∀ lookup : Lookup,
    engine.resolver.lookups[segment.generation]? = some lookup → lookup.segment = segment
  finds : ∀ id withSeqNo older segment newer position,
    Newest engine.segments id older segment newer position →
      (engine.resolver.version engine.segments id withSeqNo).1 =
        (Lookup.versionHit segment position withSeqNo).map some
  misses : ∀ id withSeqNo, (∀ segment ∈ engine.segments, Lookup.search? segment id = none) →
    (engine.resolver.version engine.segments id withSeqNo).1 = .ok none
  replaces : ∀ id older segment newer position, engine.pending.findLive? id = none →
    Newest engine.segments id older segment newer position →
      (engine.removeLive id).1 = .ok () → (engine.removeLive id).2.segments =
        older ++ segment.withSoftDeleted position engine.nextGeneration :: newer
  spares : ∀ id, (engine.pending.findLive? id ≠ none ∨
      (∀ segment ∈ engine.segments, Lookup.search? segment id = none) ∨
      (engine.removeLive id).1 ≠ .ok ()) →
    (engine.removeLive id).2.segments = engine.segments

variable {engine : Engine}

theorem Newest.found_mem {segments older newer : List Segment} {id : Bytes} {segment : Segment}
    {position : Nat} (newest : Newest segments id older segment newer position) :
    ¬ ∀ other ∈ segments, Lookup.search? other id = none := fun missing => by
  have none := missing segment newest.mem
  rw [newest.found] at none
  cases none

namespace Identified

/-- A search reports what is read at the place that it finds, whatever is in the cache. -/
theorem finds (identified : engine.Identified) (id : Bytes) (withSeqNo : Bool)
    {older newer : List Segment} {segment : Segment} {position : Nat}
    (newest : Newest engine.segments id older segment newer position) :
    (engine.resolver.version engine.segments id withSeqNo).1 =
      (Lookup.versionHit segment position withSeqNo).map some := by
  obtain ⟨after, -, outcome⟩ := identified.search identified.faithful id
    fun segment position => Lookup.versionHit segment position withSeqNo
  rcases outcome with ⟨missing, -⟩ | ⟨_, other, _, place, again, same⟩
  · exact absurd missing newest.found_mem
  · obtain ⟨-, rfl, -, rfl⟩ := newest.unique again
    exact congrArg Prod.fst same

theorem misses (identified : engine.Identified) (id : Bytes) (withSeqNo : Bool)
    (missing : ∀ segment ∈ engine.segments, Lookup.search? segment id = none) :
    (engine.resolver.version engine.segments id withSeqNo).1 = .ok none := by
  obtain ⟨after, -, outcome⟩ := identified.search identified.faithful id
    fun segment position => Lookup.versionHit segment position withSeqNo
  rcases outcome with ⟨-, same⟩ | ⟨_, _, _, _, newest, -⟩
  · exact congrArg Prod.fst same
  · exact absurd missing newest.found_mem

/-- A removal that finds a segment replaces that one. -/
theorem replaces (identified : engine.Identified) (id : Bytes)
    {older newer : List Segment} {segment : Segment} {position : Nat}
    (settled : engine.pending.findLive? id = none)
    (newest : Newest engine.segments id older segment newer position)
    (removed : (engine.removeLive id).1 = .ok ()) :
    (engine.removeLive id).2.segments =
      older ++ segment.withSoftDeleted position engine.nextGeneration :: newer := by
  have removal := identified.removal id
  generalize engine.removeLive id = outcome at removal removed ⊢
  obtain ⟨result, later⟩ := outcome
  cases removal with
  | pending found =>
      rw [settled] at found
      cases found
  | absent _ _ missing => exact absurd missing newest.found_mem
  | failed => cases removed
  | replaced _ _ again _ =>
      obtain ⟨rfl, rfl, rfl, rfl⟩ := newest.unique again
      rfl

theorem spares (identified : engine.Identified) (id : Bytes)
    (elsewhere : engine.pending.findLive? id ≠ none ∨
      (∀ segment ∈ engine.segments, Lookup.search? segment id = none) ∨
      (engine.removeLive id).1 ≠ .ok ()) :
    (engine.removeLive id).2.segments = engine.segments := by
  have removal := identified.removal id
  generalize engine.removeLive id = outcome at removal elsewhere ⊢
  obtain ⟨result, later⟩ := outcome
  cases removal with
  | pending | absent | failed => rfl
  | replaced settled _ newest _ =>
      rcases elsewhere with pending | missing | failed
      · exact absurd settled pending
      · exact absurd missing newest.found_mem
      · exact absurd rfl failed

theorem tellsApart (identified : engine.Identified) : engine.TellsApart where
  distinct := identified.distinct
  cached segment member lookup kept :=
    identified.faithful.bound segment.generation lookup kept segment member rfl
  finds id withSeqNo _ _ _ _ newest := identified.finds id withSeqNo newest
  misses := identified.misses
  replaces id _ _ _ _ settled newest removed := identified.replaces id settled newest removed
  spares := identified.spares

theorem use (identified : engine.Identified) (use : Use)
    (distinct : ∀ segments ∈ engine.taken use, (segments.map (·.generation)).Nodup) :
    (engine.use use).Identified := by
  cases use with
  | prepare segments =>
      dsimp only [Engine.use]
      dsimp only [Engine.taken] at distinct
      cases accepted : engine.prepare segments with
      | error => exact identified
      | ok prepared =>
          rw [accepted] at distinct
          exact identified_prepare accepted (distinct segments rfl)
  | call call =>
      cases call with
      | apply operation => exact identified.apply operation
      | get id => exact identified.get id
      | refresh =>
          dsimp only [Engine.use]
          cases refreshed : engine.refresh with
          | error => exact identified
          | ok later => exact identified.refresh refreshed

theorem visits (identified : engine.Identified) {uses : List Use}
    (distinct : ∀ segments ∈ engine.accepted uses, (segments.map (·.generation)).Nodup) :
    ∀ visited ∈ engine.visits uses, visited.Identified := by
  induction uses generalizing engine with
  | nil => exact List.forall_mem_singleton.mpr identified
  | cons use uses ih =>
      have now (segments : List Segment) (member : segments ∈ engine.taken use) :
          (segments.map (·.generation)).Nodup :=
        distinct segments (List.mem_append_left _ (Option.mem_toList.mpr member))
      have later := fun segments member =>
        distinct segments (List.mem_append_right (engine.taken use).toList member)
      exact List.forall_mem_cons.mpr ⟨identified, ih (identified.use use now) later⟩

end Identified

theorem identified_empty : Identified {} where
  usable segment member := by cases member
  complete entry member := by cases member
  distinct := .nil
  older segment member := by cases member
  faithful := Resolver.faithful_empty _ _

theorem head_mem_visits (engine : Engine) (uses : List Use) : engine ∈ engine.visits uses := by
  cases uses <;> exact List.mem_cons_self

/-- An engine that takes segments is next seen with these. -/
theorem exists_visit {uses : List Use} {segments : List Segment}
    (accepted : segments ∈ engine.accepted uses) :
    ∃ visited ∈ engine.visits uses, visited.segments = segments := by
  induction uses generalizing engine with
  | nil => cases accepted
  | cons use uses ih =>
      rcases List.mem_append.mp accepted with now | later
      · refine ⟨engine.use use, List.mem_cons_of_mem _ (head_mem_visits _ uses), ?_⟩
        have now : engine.taken use = some segments := Option.mem_toList.mp now
        cases use with
        | call call => cases now
        | prepare given =>
            dsimp only [Engine.taken] at now
            dsimp only [Engine.use]
            cases prepared : engine.prepare given with
            | error =>
                rw [prepared] at now
                cases now
            | ok =>
                rw [prepared] at now
                cases now
                obtain ⟨_, _, -, rfl⟩ := prepare_ok prepared
                rfl
      · obtain ⟨visited, member, same⟩ := ih later
        exact ⟨visited, List.mem_cons_of_mem _ member, same⟩

/-- However an engine is used from its beginning, generations mean one segment each at
all times if and only if they do so in each list of segments that it takes. -/
theorem tellsApart_iff (uses : List Use) :
    (∀ visited ∈ visits {} uses, visited.TellsApart) ↔
      ∀ segments ∈ accepted {} uses, (segments.map (·.generation)).Nodup := by
  constructor
  · intro apart segments member
    obtain ⟨visited, there, same⟩ := exists_visit member
    rw [← same]
    exact (apart visited there).distinct
  · intro distinct visited member
    exact (identified_empty.visits distinct visited member).tellsApart

/-- Two segments of one generation, with a document each. -/
def twins : List Segment := [
  (({} : SegmentBuilder).add (SegmentBuilder.liveDocument (Text.Utf8.encode "a") 1 0 1)).build 1,
  (({} : SegmentBuilder).add (SegmentBuilder.liveDocument (Text.Utf8.encode "b") 1 1 1)).build 1]

/-- The engine takes two segments of one generation. The search for the document in the
first then asks the lookup of the second, and an operation on the document in the second
deletes the one in the first. -/
theorem not_tellsApart_twins :
    ¬ (∀ (uses : List Use), ∀ visited ∈ visits {} uses,
        (visited.segments.map (·.generation)).Nodup) ∧
      twins.map (Lookup.search? · (Text.Utf8.encode "a")) = [some 0, none] ∧
      ((({} : Engine).use (.prepare twins)).reports "a").toOption = some none ∧
      ((({} : Engine).use (.prepare twins)).use
        (.call (.apply ⟨2, 1, .index "b" 2 []⟩))).segments.map
          (fun segment => (segment.generation, segment.numDocs)) = [(2, 0), (1, 1)] := by
  refine ⟨fun claimed => ?_, by decide +kernel, by decide +kernel, by decide +kernel⟩
  have apart := claimed [.prepare twins] (({} : Engine).use (.prepare twins))
    (List.mem_cons_of_mem _ List.mem_cons_self)
  exact absurd apart (by decide +kernel)

end ShardSync.Engine
