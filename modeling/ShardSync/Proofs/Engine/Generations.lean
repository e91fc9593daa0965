import ShardSync.Proofs.Engine.Documents
import ShardSync.Proofs.Segment.Rows

/-!
# Generations tell segments apart

The generations that an engine gives away are above those of its segments, so segments
that were told apart when the engine was given them stay told apart. Then the lookup that
is kept for a generation is the one of its segment, and the segment that a removal
replaces is the one that the search has found.
-/

set_option autoImplicit false

namespace ShardSync.Engine

/-- The segments that are new are younger than all generations given away before. -/
structure Grows (before after : Engine) : Prop where
  least : before.nextGeneration.toNat ≤ after.nextGeneration.toNat
  fresh : ∀ segment ∈ after.segments, segment ∈ before.segments ∨
    before.nextGeneration.toNat ≤ segment.generation.toNat

theorem Grows.of_same {before after : Engine} (segments : after.segments = before.segments)
    (next : after.nextGeneration = before.nextGeneration) : Grows before after where
  least := Nat.le_of_eq (by rw [next])
  fresh segment member := by
    rw [segments] at member
    exact .inl member

theorem Grows.trans {first second third : Engine} (earlier : Grows first second)
    (later : Grows second third) : Grows first third where
  least := Nat.le_trans earlier.least later.least
  fresh segment member := by
    rcases later.fresh segment member with known | beyond
    · exact earlier.fresh segment known
    · exact .inr (Nat.le_trans earlier.least beyond)

/-- An engine whose segments can be searched and have generations of their own, all of
which have been given away, and whose cache belongs to these segments. -/
structure Identified (engine : Engine) : Prop where
  usable : ∀ segment ∈ engine.segments, ∃ lookup, Lookup.ofSegment segment = .ok lookup
  complete : ∀ entry ∈ engine.pending.entries, entry.IsComplete
  distinct : (engine.segments.map (·.generation)).Nodup
  older : ∀ segment ∈ engine.segments, segment.generation.toNat < engine.nextGeneration.toNat
  faithful : engine.resolver.Faithful engine.segments engine.nextGeneration

/-- The newest segment with a live position for an id, and the segments around it. -/
structure Newest (segments : List Segment) (id : Bytes) (older : List Segment)
    (segment : Segment) (newer : List Segment) (position : Nat) : Prop where
  split : segments = older ++ segment :: newer
  found : Lookup.search? segment id = some position
  missed : ∀ other ∈ newer, Lookup.search? other id = none

namespace Newest

variable {segments older newer : List Segment} {id : Bytes} {segment : Segment} {position : Nat}

theorem mem (newest : Newest segments id older segment newer position) : segment ∈ segments := by
  rw [newest.split]
  exact List.mem_append_right _ List.mem_cons_self

theorem kept (newest : Newest segments id older segment newer position) :
    (older ++ newer).Sublist segments := by
  rw [newest.split]
  exact (List.sublist_cons_self segment newer).append_left older

theorem carries (newest : Newest segments id older segment newer position) :
    (segment.row position).carries id = true :=
  (Row.isLiveWith_iff.mp (Segment.isLiveWith_of_search? newest.found)).2

/-- There is one newest segment at most. -/
theorem unique (newest : Newest segments id older segment newer position)
    {olderOther newerOther : List Segment} {other : Segment} {positionOther : Nat}
    (again : Newest segments id olderOther other newerOther positionOther) :
    olderOther = older ∧ other = segment ∧ newerOther = newer ∧ positionOther = position := by
  have known : older ++ segment :: newer = olderOther ++ other :: newerOther :=
    newest.split.symm.trans again.split
  rcases List.append_eq_append_iff.mp known with ⟨between, same, rest⟩ | ⟨between, same, rest⟩
  all_goals
    cases between with
    | nil =>
        cases rest
        have place := newest.found.symm.trans again.found
        exact ⟨by simp [same], rfl, rfl, by simpa using place.symm⟩
    | cons first between => ?_
  -- The one that stands before the other has been missed by nothing after it.
  · cases rest
    have none := newest.missed other (List.mem_append_right _ List.mem_cons_self)
    rw [again.found] at none
    cases none
  · cases rest
    have none := again.missed segment (List.mem_append_right _ List.mem_cons_self)
    rw [newest.found] at none
    cases none

end Newest

variable {engine later : Engine}

/-- A segment stays usable when a position is deleted that carries an id. -/
theorem usable_withSoftDeleted {segment : Segment} {lookup : Lookup}
    (usable : Lookup.ofSegment segment = .ok lookup) {position : Nat} {id : Bytes}
    (carries : (segment.row position).carries id = true) (generation : Generation) :
    ∃ lookup, Lookup.ofSegment (segment.withSoftDeleted position generation) = .ok lookup := by
  have named : segment.ids?.isNone = false := by
    cases ids : segment.ids? with
    | some => rfl
    | none =>
        simp [Segment.row, Segment.postings?, ids] at carries
  have kept : (segment.withSoftDeleted position generation).ids? = segment.ids? ∧
      (segment.withSoftDeleted position generation).versions? = segment.versions? := by
    unfold Segment.withSoftDeleted
    split <;> exact ⟨rfl, rfl⟩
  unfold Lookup.ofSegment at usable ⊢
  rw [kept.1, kept.2, named]
  rw [named] at usable
  split at usable
  · cases usable
  · split at usable
    · cases usable
    · next versions =>
        rw [if_neg versions]
        exact ⟨_, rfl⟩

theorem versionHit_ok {segment : Segment} {position : Nat} {withSeqNo : Bool} {hit : VersionHit}
    (read : Lookup.versionHit segment position withSeqNo = .ok hit) :
    hit.position = position ∧ hit.generation = segment.generation := by
  unfold Lookup.versionHit at read
  generalize Lookup.value segment segment.seqNos? position "_seq_no" = seqNo,
    Lookup.value segment segment.primaryTerms? position "_primary_term" = primaryTerm,
    Lookup.value segment segment.versions? position "_version" = version at read
  cases withSeqNo <;> cases seqNo <;> cases primaryTerm <;> cases version <;> cases read <;>
    exact ⟨rfl, rfl⟩

/-- What deleting the live copy of a document comes to when segments can be told apart. -/
inductive Removal (engine : Engine) (id : Bytes) : Except EngineError Unit → Engine → Prop where
  | pending {position : Nat} (found : engine.pending.findLive? id = some position) :
      Removal engine id (.ok ()) { engine with pending := engine.pending.softDelete position }
  | absent {resolver : Resolver} (settled : engine.pending.findLive? id = none)
      (faithful : resolver.Faithful engine.segments engine.nextGeneration)
      (missing : ∀ segment ∈ engine.segments, Lookup.search? segment id = none) :
      Removal engine id (.ok ()) { engine with resolver }
  | failed {resolver : Resolver} (settled : engine.pending.findLive? id = none)
      (faithful : resolver.Faithful engine.segments engine.nextGeneration) (error : EngineError) :
      Removal engine id (.error error) { engine with resolver }
  | replaced {resolver : Resolver} {older newer : List Segment} {segment : Segment}
      {position : Nat} {next : Generation} (settled : engine.pending.findLive? id = none)
      (faithful : resolver.Faithful engine.segments engine.nextGeneration)
      (newest : Newest engine.segments id older segment newer position)
      (number : next.toNat = engine.nextGeneration.toNat + 1) :
      Removal engine id (.ok ()) { engine with
        resolver
        nextGeneration := next
        segments := older ++ segment.withSoftDeleted position engine.nextGeneration :: newer }

namespace Identified

/-- A search answers from the newest segment with a live position for the id. -/
theorem search {α : Type} (identified : engine.Identified) {resolver : Resolver}
    (faithful : resolver.Faithful engine.segments engine.nextGeneration) (id : Bytes)
    (hit : Segment → Nat → Except SegmentError α) :
    ∃ after : Resolver, after.Faithful engine.segments engine.nextGeneration ∧
      ((∀ segment ∈ engine.segments, Lookup.search? segment id = none) ∧
          (resolver.evict engine.segments).search (·.report id hit) engine.segments.reverse =
            (.ok none, after) ∨
        ∃ older segment newer position, Newest engine.segments id older segment newer position ∧
          (resolver.evict engine.segments).search (·.report id hit) engine.segments.reverse =
            ((hit segment position).map some, after)) := by
  obtain ⟨after, faithfulAfter, outcome⟩ :=
    (faithful.evict engine.segments).search identified.distinct identified.usable
      identified.older id hit (List.reverse_subset.mpr (List.Subset.refl _))
  refine ⟨after, faithfulAfter, ?_⟩
  rcases outcome with ⟨missing, same⟩ | ⟨newer, segment, older, position, split, missed, found, same⟩
  · exact .inl ⟨fun segment member => missing segment (List.mem_reverse.mpr member), same⟩
  · refine .inr ⟨older.reverse, segment, newer.reverse, position, ⟨?_, found, fun other member =>
      missed other (List.mem_reverse.mp member)⟩, same⟩
    rw [List.reverse_eq_iff.mp split, List.reverse_append, List.reverse_cons, List.append_assoc]
    rfl

/-- The segment that has a generation is the one that is replaced by it. -/
theorem replaceFirst_eq (identified : engine.Identified) {older newer : List Segment}
    {segment : Segment} (split : engine.segments = older ++ segment :: newer)
    (change : Segment → Segment) :
    replaceFirst segment.generation change engine.segments = older ++ change segment :: newer := by
  have distinct := identified.distinct
  rw [split, List.map_append, List.map_cons, List.nodup_middle, List.nodup_cons] at distinct
  rw [split]
  refine replaceFirst_append (fun other listed same => distinct.1 ?_) change
  rw [← same]
  exact List.mem_append_left _ (List.mem_map_of_mem listed)

theorem removal (identified : engine.Identified) (id : Bytes) :
    engine.Removal id (engine.removeLive id).1 (engine.removeLive id).2 := by
  unfold Engine.removeLive
  cases settled : engine.pending.findLive? id with
  | some position => exact .pending settled
  | none =>
      obtain ⟨after, faithful, outcome⟩ := identified.search identified.faithful id
        fun segment position => Lookup.versionHit segment position false
      have searched : engine.resolver.version engine.segments id false =
          (engine.resolver.evict engine.segments).search
            (·.report id fun segment position => Lookup.versionHit segment position false)
            engine.segments.reverse := rfl
      dsimp only
      rw [searched]
      rcases outcome with ⟨missing, same⟩ | ⟨older, segment, newer, position, newest, same⟩
      · rw [same]
        exact .absent settled faithful missing
      · rw [same]
        cases read : Lookup.versionHit segment position false with
        | error error => exact .failed settled faithful _
        | ok hit =>
            obtain ⟨place, generation⟩ := versionHit_ok read
            dsimp only [Except.map]
            rcases allocate_cases { engine with resolver := after } with
              ⟨_, refused⟩ | ⟨next, number, allocated⟩
            · rw [refused]
              exact .failed settled faithful _
            · rw [allocated]
              dsimp only
              rw [place, generation, identified.replaceFirst_eq newest.split]
              exact .replaced settled faithful newest number

/-- A segment with the next generation joins some of those that are there. -/
theorem join (identified : engine.Identified) {segment : Segment} {before rest : List Segment}
    (segments : later.segments = before ++ segment :: rest)
    (kept : (before ++ rest).Sublist engine.segments)
    (generation : segment.generation = engine.nextGeneration)
    (number : later.nextGeneration.toNat = engine.nextGeneration.toNat + 1)
    (usable : ∃ lookup, Lookup.ofSegment segment = .ok lookup)
    (complete : ∀ entry ∈ later.pending.entries, entry.IsComplete)
    (faithful : later.resolver.Faithful engine.segments engine.nextGeneration) :
    later.Identified ∧ engine.Grows later := by
  have cases {other : Segment} (listed : other ∈ later.segments) :
      other = segment ∨ other ∈ engine.segments := by
    rw [segments] at listed
    rcases List.mem_cons.mp (List.perm_middle.mem_iff.mp listed) with same | there
    · exact .inl same
    · exact .inr (kept.subset there)
  have grows : engine.Grows later := by
    refine ⟨by omega, fun other listed => ?_⟩
    rcases cases listed with rfl | there
    · exact .inr (Nat.le_of_eq (by rw [generation]))
    · exact .inl there
  refine ⟨?_, grows⟩
  constructor
  case usable =>
    intro other listed
    rcases cases listed with rfl | there
    · exact usable
    · exact identified.usable other there
  case complete => exact complete
  case distinct =>
    rw [segments, List.map_append, List.map_cons, List.nodup_middle, List.nodup_cons,
      ← List.map_append, generation]
    refine ⟨fun listed => ?_, identified.distinct.sublist (kept.map _)⟩
    obtain ⟨other, listed, same⟩ := List.mem_map.mp listed
    have older := identified.older other (kept.subset listed)
    rw [same] at older
    exact Nat.lt_irrefl _ older
  case older =>
    intro other listed
    rcases cases listed with rfl | there
    · rw [generation]
      omega
    · have older := identified.older other there
      omega
  case faithful => exact faithful.grow grows.fresh grows.least

theorem removeLive (identified : engine.Identified) (id : Bytes) :
    (engine.removeLive id).2.Identified := by
  have removal := identified.removal id
  generalize engine.removeLive id = outcome at removal
  obtain ⟨result, later⟩ := outcome
  cases removal with
  | pending found =>
      exact ⟨identified.usable, isComplete_softDelete identified.complete _, identified.distinct,
        identified.older, identified.faithful⟩
  | absent _ faithful _ | failed _ faithful _ =>
      exact ⟨identified.usable, identified.complete, identified.distinct, identified.older,
        faithful⟩
  | @replaced resolver older newer segment position next _ faithful newest number =>
      obtain ⟨lookup, usable⟩ := identified.usable segment newest.mem
      have kept := newest.kept
      have sealed := Segment.generation_withSoftDeleted segment position engine.nextGeneration
      have usable := usable_withSoftDeleted usable newest.carries engine.nextGeneration
      refine And.left (@join engine _ identified _ older newer rfl kept sealed number usable ?_ ?_)
      · exact identified.complete
      · exact faithful

theorem collect (identified : engine.Identified) (operation : Operation)
    (sources : Std.ExtTreeMap String Bytes) :
    Identified { engine.collect operation.document with sources } := by
  refine ⟨identified.usable, fun entry member => ?_, identified.distinct, identified.older,
    identified.faithful⟩
  rcases List.mem_append.mp member with before | added
  · exact identified.complete entry before
  · rw [List.mem_singleton.mp added]
    exact operation.isComplete_document

theorem perform (identified : engine.Identified) (operation : Operation) :
    (engine.perform operation).2.Identified := by
  cases key : operation.key? with
  | none =>
      rw [perform_of_no_key key]
      exact identified.collect operation engine.sources
  | some id =>
      have removed := identified.removeLive id
      rw [perform_of_key key]
      generalize engine.removeLive id = outcome at removed
      obtain ⟨result, between⟩ := outcome
      cases result with
      | error error => exact removed
      | ok => exact removed.collect operation _

/-- An operation keeps segments told apart, whether it succeeds or fails. -/
theorem apply (identified : engine.Identified) (operation : Operation) :
    (engine.apply operation).2.Identified := by
  have performed := identified.perform operation
  unfold Engine.apply
  split
  · exact identified
  · split
    · exact identified
    · generalize engine.perform operation = outcome at performed
      obtain ⟨result, between⟩ := outcome
      cases result with
      | error error => exact performed
      | ok =>
          exact ⟨performed.usable, performed.complete, performed.distinct, performed.older,
            performed.faithful⟩

theorem refresh (identified : engine.Identified) (refreshed : engine.refresh = .ok later) :
    later.Identified := by
  unfold Engine.refresh at refreshed
  by_cases empty : engine.pending.entries = []
  · rw [if_pos (List.isEmpty_iff.mpr empty)] at refreshed
    cases refreshed
    exact identified
  · rw [if_neg (fun same => empty (List.isEmpty_iff.mp same))] at refreshed
    rcases allocate_cases engine with ⟨_, refused⟩ | ⟨next, number, allocated⟩
    · rw [refused] at refreshed
      cases refreshed
    · rw [allocated] at refreshed
      have same := Except.ok.inj refreshed
      have segments : later.segments =
          engine.segments ++ [engine.pending.build engine.nextGeneration] := by rw [← same]
      exact (identified.join segments (by rw [List.append_nil]) rfl (by rw [← same]; exact number)
        ⟨_, SegmentBuilder.ofSegment_build empty identified.complete engine.nextGeneration⟩
        (fun entry member => by rw [← same] at member; cases member)
        (by rw [← same]; exact identified.faithful)).1

theorem get (identified : engine.Identified) (id : String) : (engine.get id).2.Identified := by
  obtain ⟨after, faithful, outcome⟩ := identified.search identified.faithful
    (Text.Utf8.encode id) fun segment position => Lookup.versionHit segment position true
  have left : (engine.get id).2 = { engine with resolver := after } := by
    rcases outcome with ⟨-, same⟩ | ⟨_, _, _, _, -, same⟩ <;>
      exact congrArg (fun found : _ × Resolver => { engine with resolver := found.2 }) same
  rw [left]
  exact ⟨identified.usable, identified.complete, identified.distinct, identified.older, faithful⟩

end Identified

/-- A prepared engine tells its segments apart if their generations do. -/
theorem identified_prepare {prepared : Engine} {segments : List Segment}
    (accepted : engine.prepare segments = .ok prepared)
    (distinct : (segments.map (·.generation)).Nodup) : prepared.Identified := by
  obtain ⟨tracker, nextGeneration, surveyed, rfl⟩ := prepare_ok accepted
  have older := (survey_older surveyed).2
  exact ⟨fun segment member => (older segment member).2,
    fun entry member => absurd member List.not_mem_nil, distinct,
    fun segment member => (older segment member).1, Resolver.faithful_empty _ _⟩

end ShardSync.Engine
