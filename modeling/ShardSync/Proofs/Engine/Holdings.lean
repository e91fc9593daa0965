import ShardSync.Proofs.Engine.Generations

/-!
# What an engine holds

The rows of an engine are those of its segments and of what is pending. Which rows an
operation leaves does not depend on how the others are spread over segments, and what
can be seen of the engine once nothing is pending depends on its rows alone.
-/

set_option autoImplicit false

namespace ShardSync

/-- The row that an operation adds. -/
def Operation.row (operation : Operation) : Row :=
  .ofPending ⟨operation.document, !operation.document.softDeleted⟩

theorem Operation.sourcesAfter_of_no_key {operation : Operation} (key : operation.key? = none)
    (sources : Std.ExtTreeMap String Bytes) : operation.sourcesAfter sources = sources := by
  unfold Operation.key? Operation.id? at key
  unfold Operation.sourcesAfter
  cases action : operation.action with
  | index id version source =>
      rw [action] at key
      cases key
  | delete id version =>
      rw [action] at key
      cases key
  | noOp reason => rfl

def Operation.rowsAfter (operation : Operation) (rows : List Row) : List Row :=
  (operation.key?.elim rows fun id => Row.without id rows) ++ [operation.row]

theorem Operation.key?_of_isLiveWith {operation : Operation} {id : Bytes}
    (live : operation.row.isLiveWith id = true) : operation.key? = some id := by
  rw [Row.isLiveWith_iff] at live
  rw [← operation.id?_document]
  exact beq_iff_eq.mp live.2

/-- All that operations change of an engine, without its segments. -/
structure Holdings where
  rows : List Row
  sources : Std.ExtTreeMap String Bytes
  tracker : Tracker

def Holdings.after (holdings : Holdings) (operation : Operation) : Holdings where
  rows := operation.rowsAfter holdings.rows
  sources := operation.sourcesAfter holdings.sources
  tracker := holdings.tracker.mark operation.seqNo.toInt

theorem Row.AreSingle.rowsAfter {rows : List Row} (single : Row.AreSingle rows)
    (operation : Operation) : Row.AreSingle (operation.rowsAfter rows) := by
  unfold Operation.rowsAfter
  cases key : operation.key? with
  | none =>
      refine single.concat fun id live => ?_
      rw [Operation.key?_of_isLiveWith live] at key
      cases key
  | some id =>
      refine (single.without id).concat fun other live => ?_
      rw [Operation.key?_of_isLiveWith live] at key
      cases key
      exact fun row member => Row.isLiveWith_without member

namespace Engine

def rows (engine : Engine) : List Row :=
  engine.segments.flatMap Segment.rows ++ engine.pending.entries.map Row.ofPending

def holdings (engine : Engine) : Holdings where
  rows := engine.rows
  sources := engine.sources
  tracker := engine.tracker

/-- An engine whose segments can be searched, have generations of their own, and hold
no id at two live positions. -/
structure Tidy (engine : Engine) : Prop where
  usable : ∀ segment ∈ engine.segments, ∃ lookup, Lookup.ofSegment segment = .ok lookup
  masked : ∀ segment ∈ engine.segments, segment.IsMasked
  complete : ∀ entry ∈ engine.pending.entries, entry.IsComplete
  distinct : (engine.segments.map (·.generation)).Nodup
  older : ∀ segment ∈ engine.segments, segment.generation.toNat < engine.nextGeneration.toNat
  faithful : engine.resolver.Faithful engine.segments engine.nextGeneration
  single : Row.AreSingle engine.rows

variable {engine later : Engine}

theorem Tidy.identified (tidy : engine.Tidy) : engine.Identified :=
  ⟨tidy.usable, tidy.complete, tidy.distinct, tidy.older, tidy.faithful⟩

theorem isLiveWith_pending {id : Bytes} (settled : engine.pending.findLive? id = none) :
    ∀ row ∈ engine.pending.entries.map Row.ofPending, row.isLiveWith id = false := by
  refine List.forall_mem_map.mpr fun entry member => eq_false_of_ne_true fun live => ?_
  rw [Row.isLiveWith_iff] at live
  exact SegmentBuilder.findLive?_eq_none settled entry member live.1 (beq_iff_eq.mp live.2)

theorem isLiveWith_of_missing {id : Bytes}
    (missing : ∀ segment ∈ engine.segments, Lookup.search? segment id = none)
    (settled : engine.pending.findLive? id = none) :
    ∀ row ∈ engine.rows, row.isLiveWith id = false := by
  intro row member
  rcases List.mem_append.mp member with sealed | pending
  · obtain ⟨segment, listed, inside⟩ := List.mem_flatMap.mp sealed
    exact Segment.search?_eq_none (missing segment listed) row inside
  · exact isLiveWith_pending settled row pending

/-- A search in the segments finds the live row with an id, if that is not pending. -/
theorem Tidy.search {α : Type} (tidy : engine.Tidy) {id : Bytes}
    (settled : engine.pending.findLive? id = none) {resolver : Resolver}
    (faithful : resolver.Faithful engine.segments engine.nextGeneration)
    (hit : Segment → Nat → Except SegmentError α) :
    ∃ after : Resolver, after.Faithful engine.segments engine.nextGeneration ∧
      (((∀ row ∈ engine.rows, row.isLiveWith id = false) ∧
          (resolver.evict engine.segments).search (·.report id hit) engine.segments.reverse =
            (.ok none, after)) ∨
        ∃ segment ∈ engine.segments, ∃ position, position < segment.maxDoc ∧
          (segment.row position).isLiveWith id = true ∧
          (resolver.evict engine.segments).search (·.report id hit) engine.segments.reverse =
            ((hit segment position).map some, after)) := by
  obtain ⟨after, faithfulAfter, outcome⟩ := tidy.identified.search faithful id hit
  refine ⟨after, faithfulAfter, ?_⟩
  rcases outcome with ⟨missing, same⟩ | ⟨_, segment, _, position, newest, same⟩
  · refine .inl ⟨fun row member => ?_, same⟩
    exact isLiveWith_of_missing missing settled row member
  · obtain ⟨inside, live⟩ :=
      Segment.search?_eq_some (tidy.masked segment newest.mem) newest.found
    exact .inr ⟨segment, newest.mem, position, inside, live, same⟩

theorem mem_rows {segment : Segment} (member : segment ∈ engine.segments) {position : Nat}
    (inside : position < segment.maxDoc) : segment.row position ∈ engine.rows :=
  List.mem_append_left _ (List.mem_flatMap.mpr
    ⟨segment, member, List.mem_of_getElem? (Segment.getElem?_rows inside)⟩)

/-- A segment with the next generation joins some of those that are there. -/
theorem Tidy.seal (tidy : engine.Tidy) {segment : Segment} {before rest : List Segment}
    (segments : later.segments = before ++ segment :: rest)
    (kept : (before ++ rest).Sublist engine.segments)
    (generation : segment.generation = engine.nextGeneration)
    (number : later.nextGeneration.toNat = engine.nextGeneration.toNat + 1)
    (usable : ∃ lookup, Lookup.ofSegment segment = .ok lookup) (masked : segment.IsMasked)
    (complete : ∀ entry ∈ later.pending.entries, entry.IsComplete)
    (faithful : later.resolver.Faithful engine.segments engine.nextGeneration)
    (single : Row.AreSingle later.rows) : later.Tidy ∧ engine.Grows later := by
  obtain ⟨identified, grows⟩ :=
    tidy.identified.join segments kept generation number usable complete faithful
  refine ⟨⟨identified.usable, fun other listed => ?_, identified.complete, identified.distinct,
    identified.older, identified.faithful, single⟩, grows⟩
  rw [segments] at listed
  rcases List.mem_cons.mp (List.perm_middle.mem_iff.mp listed) with rfl | there
  · exact masked
  · exact tidy.masked other (kept.subset there)

/-- A segment without the live row takes the place of the one with it. -/
theorem Tidy.replace (tidy : engine.Tidy) {resolver : Resolver}
    (faithful : resolver.Faithful engine.segments engine.nextGeneration) {id : Bytes}
    {older newer : List Segment} {segment : Segment} {position : Nat}
    (newest : Newest engine.segments id older segment newer position) {next : Generation}
    (number : next.toNat = engine.nextGeneration.toNat + 1)
    (replaced : later = { engine with
      resolver
      nextGeneration := next
      segments := older ++ segment.withSoftDeleted position engine.nextGeneration :: newer }) :
    later.Tidy ∧ engine.Grows later ∧ later.rows = Row.without id engine.rows := by
  obtain ⟨inside, live⟩ := Segment.search?_eq_some (tidy.masked segment newest.mem) newest.found
  obtain ⟨earlier, others, rows, modified⟩ :=
    exists_modify_eq (Segment.getElem?_rows inside)
  have segments : later.segments =
      older ++ segment.withSoftDeleted position engine.nextGeneration :: newer := by rw [replaced]
  have pending : later.pending = engine.pending := by rw [replaced]
  have left : later.rows = Row.without id engine.rows := by
    have whole : engine.rows = (older.flatMap Segment.rows ++ earlier) ++
        segment.row position :: (others ++ (newer.flatMap Segment.rows ++
          engine.pending.entries.map Row.ofPending)) := by
      rw [Engine.rows, newest.split, List.flatMap_append, List.flatMap_cons, rows]
      simp only [List.append_assoc, List.cons_append]
    have single := tidy.single
    rw [whole] at single ⊢
    rw [Row.without_of_split single live, Engine.rows, segments, pending,
      List.flatMap_append, List.flatMap_cons, Segment.rows_withSoftDeleted inside, modified]
    simp only [List.append_assoc, List.cons_append]
  obtain ⟨lookup, usable⟩ := tidy.usable segment newest.mem
  have sealed := tidy.seal segments newest.kept (Segment.generation_withSoftDeleted ..)
    (by rw [replaced]; exact number) (usable_withSoftDeleted usable newest.carries _)
    (Segment.isMasked_withSoftDeleted (tidy.masked segment newest.mem) position _)
    (by rw [pending]; exact tidy.complete) (by rw [replaced]; exact faithful)
    (by rw [left]; exact tidy.single.without id)
  exact ⟨sealed.1, sealed.2, left⟩

theorem Tidy.deletePending (tidy : engine.Tidy) {id : Bytes} {position : Nat}
    (found : engine.pending.findLive? id = some position) :
    Tidy { engine with pending := engine.pending.softDelete position } ∧
      rows { engine with pending := engine.pending.softDelete position } =
        Row.without id engine.rows := by
  obtain ⟨entry, there, live, carries⟩ := (SegmentBuilder.findLive?_eq_some_iff.mp found).1
  obtain ⟨before, rest, entries, modified⟩ := exists_modify_eq there
  have liveWith : (Row.ofPending entry).isLiveWith id = true :=
    Row.isLiveWith_iff.mpr ⟨live, beq_iff_eq.mpr carries⟩
  have left : rows { engine with pending := engine.pending.softDelete position } =
      Row.without id engine.rows := by
    have whole : engine.rows = (engine.segments.flatMap Segment.rows ++
        before.map Row.ofPending) ++ Row.ofPending entry :: rest.map Row.ofPending := by
      rw [Engine.rows, entries, List.map_append, List.map_cons, List.append_assoc]
    have single := tidy.single
    rw [whole] at single ⊢
    rw [Row.without_of_split single liveWith, Engine.rows, SegmentBuilder.softDelete, modified,
      List.map_append, List.map_cons, List.append_assoc]
    rfl
  refine ⟨⟨tidy.usable, tidy.masked, isComplete_softDelete tidy.complete position,
    tidy.distinct, tidy.older, tidy.faithful, ?_⟩, left⟩
  rw [left]
  exact tidy.single.without id

/-- Removing the live copy of a document kills the live row with its id. -/
theorem Tidy.removeLive (tidy : engine.Tidy) {id : Bytes}
    (removed : engine.removeLive id = (.ok (), later)) :
    later.Tidy ∧ engine.Grows later ∧ later.rows = Row.without id engine.rows ∧
      later.sources = engine.sources := by
  have removal := tidy.identified.removal id
  rw [removed] at removal
  cases removal with
  | pending found =>
      obtain ⟨tidyLater, left⟩ := tidy.deletePending found
      exact ⟨tidyLater, .of_same rfl rfl, left, rfl⟩
  | absent settled faithful missing =>
      exact ⟨⟨tidy.usable, tidy.masked, tidy.complete, tidy.distinct, tidy.older, faithful,
        tidy.single⟩, .of_same rfl rfl,
        (Row.without_of_none (isLiveWith_of_missing missing settled)).symm, rfl⟩
  | replaced _ faithful newest number =>
      obtain ⟨tidyLater, grows, left⟩ := tidy.replace faithful newest number rfl
      exact ⟨tidyLater, grows, left, rfl⟩

theorem Tidy.collect (tidy : engine.Tidy) {operation : Operation}
    (free : ∀ id, operation.key? = some id → ∀ row ∈ engine.rows, row.isLiveWith id = false)
    (sources : Std.ExtTreeMap String Bytes) :
    Tidy { engine.collect operation.document with sources } ∧
      rows { engine.collect operation.document with sources } = engine.rows ++ [operation.row] := by
  have grown : rows { engine.collect operation.document with sources } =
      engine.rows ++ [operation.row] := by
    rw [rows, rows, List.append_assoc, Engine.collect, SegmentBuilder.add, List.map_append]
    rfl
  refine ⟨⟨tidy.usable, tidy.masked, fun entry member => ?_, tidy.distinct, tidy.older,
    tidy.faithful, ?_⟩, grown⟩
  · rcases List.mem_append.mp member with before | added
    · exact tidy.complete entry before
    · rw [List.mem_singleton.mp added]
      exact operation.isComplete_document
  · rw [grown]
    exact tidy.single.concat fun id live => free id (Operation.key?_of_isLiveWith live)

/-- Performing an operation kills the live row with its id and adds its own. -/
theorem Tidy.perform (tidy : engine.Tidy) {operation : Operation}
    (performed : engine.perform operation = (.ok (), later)) :
    later.Tidy ∧ engine.Grows later ∧ later.rows = operation.rowsAfter engine.rows ∧
      later.sources = operation.sourcesAfter engine.sources := by
  unfold Operation.rowsAfter
  cases key : operation.key? with
  | none =>
      rw [perform_of_no_key key engine] at performed
      cases performed
      have free : ∀ id, operation.key? = some id →
          ∀ row ∈ engine.rows, row.isLiveWith id = false := fun id carries => by
        rw [key] at carries
        cases carries
      obtain ⟨tidyLater, grown⟩ := tidy.collect free engine.sources
      exact ⟨tidyLater, .of_same rfl rfl, grown, (Operation.sourcesAfter_of_no_key key _).symm⟩
  | some id =>
      rw [perform_of_key key engine] at performed
      cases removed : engine.removeLive id with
      | mk outcome between =>
          rw [removed] at performed
          cases outcome with
          | error error => cases performed
          | ok =>
              cases performed
              obtain ⟨tidyBetween, grows, left, sources⟩ := tidy.removeLive removed
              have free : ∀ other, operation.key? = some other →
                  ∀ row ∈ between.rows, row.isLiveWith other = false := by
                intro other carries row member
                rw [key] at carries
                cases carries
                rw [left] at member
                exact Row.isLiveWith_without member
              obtain ⟨tidyLater, grown⟩ :=
                tidyBetween.collect free (operation.sourcesAfter between.sources)
              refine ⟨tidyLater, grows.trans (.of_same rfl rfl), ?_, ?_⟩
              · rw [grown, left]
                rfl
              · rw [sources]

theorem Tidy.apply (tidy : engine.Tidy) {operation : Operation}
    (applied : engine.apply operation = (.ok (), later)) :
    later.Tidy ∧ engine.Grows later ∧ later.holdings = engine.holdings.after operation := by
  obtain ⟨_, _, between, performed, rfl⟩ := apply_ok applied
  obtain ⟨tidyBetween, grows, rows, sources⟩ := tidy.perform performed
  have tracker := tracker_perform engine operation
  rw [performed] at tracker
  refine ⟨⟨tidyBetween.usable, tidyBetween.masked, tidyBetween.complete, tidyBetween.distinct,
    tidyBetween.older, tidyBetween.faithful, tidyBetween.single⟩,
    grows.trans (.of_same rfl rfl), ?_⟩
  rw [holdings, Holdings.after, Holdings.mk.injEq]
  exact ⟨rows, sources, congrArg (·.mark operation.seqNo.toInt) tracker⟩

/-- Refreshing seals what is pending, and keeps the rows. -/
theorem Tidy.refresh (tidy : engine.Tidy) (refreshed : engine.refresh = .ok later) :
    later.Tidy ∧ engine.Grows later ∧ later.holdings = engine.holdings ∧
      later.pending.entries = [] := by
  unfold Engine.refresh at refreshed
  by_cases empty : engine.pending.entries = []
  · rw [if_pos (List.isEmpty_iff.mpr empty)] at refreshed
    cases refreshed
    exact ⟨tidy, .of_same rfl rfl, rfl, empty⟩
  · rw [if_neg (fun same => empty (List.isEmpty_iff.mp same))] at refreshed
    rcases allocate_cases engine with ⟨_, refused⟩ | ⟨next, number, allocated⟩
    · rw [refused] at refreshed
      cases refreshed
    · rw [allocated] at refreshed
      have same := Except.ok.inj refreshed
      have segments : later.segments =
          engine.segments ++ [engine.pending.build engine.nextGeneration] := by rw [← same]
      have pending : later.pending.entries = [] := by rw [← same]
      have kept : later.rows = engine.rows := by
        rw [rows, segments, pending, List.flatMap_append, List.flatMap_singleton,
          Segment.rows_build, List.map_nil, List.append_nil]
        rfl
      have sealed := tidy.seal segments (by rw [List.append_nil]) rfl (by rw [← same]; exact number)
        ⟨_, SegmentBuilder.ofSegment_build empty tidy.complete engine.nextGeneration⟩
        (Segment.isMasked_build engine.pending engine.nextGeneration)
        (fun entry member => by rw [pending] at member; cases member)
        (by rw [← same]; exact tidy.faithful) (by rw [kept]; exact tidy.single)
      refine ⟨sealed.1, sealed.2, ?_, pending⟩
      rw [holdings, holdings, kept, ← same]

/-- A prepared engine holds the rows of its segments. -/
theorem tidy_prepare {prepared : Engine} {segments : List Segment}
    (accepted : engine.prepare segments = .ok prepared)
    (masked : ∀ segment ∈ segments, segment.IsMasked)
    (distinct : (segments.map (·.generation)).Nodup)
    (single : Row.AreSingle (segments.flatMap Segment.rows)) :
    prepared.Tidy ∧ prepared.pending.entries = [] ∧
      prepared.rows = segments.flatMap Segment.rows := by
  obtain ⟨tracker, nextGeneration, surveyed, rfl⟩ := prepare_ok accepted
  have older := (survey_older surveyed).2
  have held : rows { segments, tracker, nextGeneration, isPrepared := true } =
      segments.flatMap Segment.rows := List.append_nil _
  refine ⟨⟨fun segment member => (older segment member).2, masked,
    fun entry member => absurd member List.not_mem_nil, distinct,
    fun segment member => (older segment member).1, Resolver.faithful_empty _ _, ?_⟩, rfl, held⟩
  rw [held]
  exact single

end Engine

/-- What a search reports of a row. -/
def Row.numbers? (row : Row) : Option Numbers :=
  row.version?.bind fun version => row.seqNo?.bind fun seqNo => row.primaryTerm?.map fun term =>
    ⟨some version, some seqNo, some term⟩

namespace Engine

variable {engine : Engine}

theorem versionHit_numbers (segment : Segment) (position : Nat) :
    (Lookup.versionHit segment position true).toOption.map VersionHit.numbers =
      (segment.row position).numbers? := by
  unfold Lookup.versionHit Lookup.value Row.numbers? Segment.row
  dsimp only
  cases segment.versions?.bind (·.get? position) <;>
    cases segment.seqNos?.bind (·.get? position) <;>
    cases segment.primaryTerms?.bind (·.get? position) <;> rfl

/-- A search reports the live row with the id. -/
theorem Tidy.reports (tidy : engine.Tidy) (settled : engine.pending.entries = []) (id : String) :
    (engine.reports id).toOption =
      (engine.rows.find? (·.isLiveWith (Text.Utf8.encode id))).elim (some none)
        fun row => row.numbers?.map some := by
  have answered : engine.reports id =
      (((engine.resolver.evict engine.segments).search
        (·.report (Text.Utf8.encode id) fun segment position =>
          Lookup.versionHit segment position true)
        engine.segments.reverse).1.mapError EngineError.unresolved).map
          (·.map VersionHit.numbers) := rfl
  obtain ⟨after, _, outcome⟩ := tidy.search (findLive?_of_empty settled (Text.Utf8.encode id))
    tidy.faithful fun segment position => Lookup.versionHit segment position true
  rw [answered]
  rcases outcome with ⟨none, same⟩ | ⟨segment, member, position, inside, live, same⟩
  · have missing : engine.rows.find? (·.isLiveWith (Text.Utf8.encode id)) = .none :=
      List.find?_eq_none.mpr fun row member => ne_true_of_eq_false (none row member)
    rw [same, missing]
    rfl
  · rw [same, tidy.single.find?_eq_some (mem_rows member inside) live, Option.elim_some,
      ← versionHit_numbers]
    cases Lookup.versionHit segment position true <;> rfl

theorem Tidy.numDocs (tidy : engine.Tidy) (settled : engine.pending.entries = []) :
    engine.numDocs = engine.rows.countP (·.isLive) := by
  have counted (segments : List Segment) (masked : ∀ segment ∈ segments, segment.IsMasked) :
      segments.foldr (fun segment rest => segment.numDocs + rest) 0 =
        (segments.flatMap Segment.rows).countP (·.isLive) := by
    induction segments with
    | nil => rfl
    | cons segment segments ih =>
        rw [List.foldr_cons, List.flatMap_cons, List.countP_append,
          ih fun other member => masked other (List.mem_cons_of_mem _ member),
          Segment.numDocs_eq_countP (masked segment List.mem_cons_self)]
  rw [Engine.numDocs, counted engine.segments tidy.masked, rows, settled, List.map_nil,
    List.append_nil]

/-- Two engines in which the same can be seen: the checkpoints, the number of documents,
and what is known of each of them. -/
structure Alike (first second : Engine) : Prop where
  localCheckpoint : first.localCheckpoint = second.localCheckpoint
  maxSeqNo : first.maxSeqNo = second.maxSeqNo
  numDocs : first.numDocs = second.numDocs
  reports : ∀ id, (first.reports id).toOption = (second.reports id).toOption
  source : ∀ id, first.source? id = second.source? id

theorem Tidy.alike {other : Engine} (tidy : engine.Tidy) (tidyOther : other.Tidy)
    (settled : engine.pending.entries = []) (settledOther : other.pending.entries = [])
    (same : engine.holdings = other.holdings) : engine.Alike other := by
  rw [holdings, holdings, Holdings.mk.injEq] at same
  obtain ⟨rows, sources, tracker⟩ := same
  constructor
  case localCheckpoint => exact congrArg (·.checkpoint) tracker
  case maxSeqNo => exact congrArg (·.maxSeqNo) tracker
  case numDocs => rw [tidy.numDocs settled, tidyOther.numDocs settledOther, rows]
  case reports =>
    intro id
    rw [tidy.reports settled, tidyOther.reports settledOther, rows]
  case source => exact fun id => congrArg (·[id]?) sources

end Engine

end ShardSync
