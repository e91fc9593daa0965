import ShardSync.Proofs.Engine.Processed
import ShardSync.Proofs.Segment.Search

/-!
# The documents of an engine

An engine holds its documents in sealed parts and in what is pending. For each
id at most one of them is live. Applying an operation puts its document in the
place of the live one, wherever that is, and a search finds the live document
once nothing is pending.
-/

set_option autoImplicit false

namespace ShardSync

/-- The document that an operation leaves in a segment. -/
def Operation.document (operation : Operation) : Document :=
  match operation.action with
  | .index id version _ =>
      SegmentBuilder.liveDocument (Text.Utf8.encode id) version operation.seqNo
        operation.primaryTerm
  | .delete id version =>
      SegmentBuilder.deleteTombstone (Text.Utf8.encode id) version operation.seqNo
        operation.primaryTerm
  | .noOp _ => SegmentBuilder.noOpTombstone operation.seqNo operation.primaryTerm

/-- The document that is live after an operation on its id. -/
def Operation.live? (operation : Operation) : Option Document :=
  if operation.document.softDeleted then none else some operation.document

/-- The id of an operation, as searches know it. -/
def Operation.key? (operation : Operation) : Option Bytes := operation.id?.map Text.Utf8.encode

/-- The sources that are stored after an operation. -/
def Operation.sourcesAfter (operation : Operation) (sources : Std.ExtTreeMap String Bytes) :
    Std.ExtTreeMap String Bytes :=
  match operation.action with
  | .index id _ source => sources.insert id source
  | .delete id _ => sources.erase id
  | .noOp _ => sources

theorem Operation.id?_document (operation : Operation) :
    operation.document.id? = operation.key? := by
  unfold document key? id? Action.id?
  cases operation.action <;> rfl

theorem Operation.seqNo?_document (operation : Operation) :
    operation.document.seqNo? = some operation.seqNo := by
  unfold document
  cases operation.action <;> rfl

theorem Operation.isComplete_document (operation : Operation) :
    Pending.IsComplete ⟨operation.document, !operation.document.softDeleted⟩ := by
  unfold document
  cases operation.action with
  | index id version source => exact ⟨rfl, rfl, rfl, fun missing => by cases missing⟩
  | delete id version => exact ⟨rfl, rfl, rfl, fun missing => by cases missing⟩
  | noOp reason => exact ⟨rfl, rfl, rfl, fun _ => ⟨rfl, rfl⟩⟩

namespace Engine

/-- The live documents with an id. -/
def liveWith (id : Bytes) (entries : List Pending) : List Document :=
  (entries.filter fun entry => entry.isLive && entry.document.id? == some id).map (·.document)

theorem liveWith_append (id : Bytes) (first second : List Pending) :
    liveWith id (first ++ second) = liveWith id first ++ liveWith id second := by
  rw [liveWith, List.filter_append, List.map_append]
  rfl

theorem liveWith_cons_of_live {id : Bytes} {entry : Pending} (live : entry.isLive = true)
    (carries : entry.document.id? = some id) (entries : List Pending) :
    liveWith id (entry :: entries) = entry.document :: liveWith id entries := by
  rw [liveWith, List.filter_cons_of_pos (by simp [live, carries])]
  rfl

theorem liveWith_cons_of_dead (id : Bytes) {entry : Pending} (dead : entry.isLive = false)
    (entries : List Pending) : liveWith id (entry :: entries) = liveWith id entries := by
  rw [liveWith, List.filter_cons_of_neg (by simp [dead])]
  rfl

theorem liveWith_cons_of_ne {id : Bytes} {entry : Pending}
    (other : entry.document.id? ≠ some id) (entries : List Pending) :
    liveWith id (entry :: entries) = liveWith id entries := by
  rw [liveWith, List.filter_cons_of_neg (by simp [other])]
  rfl

theorem mem_liveWith_iff {id : Bytes} {entries : List Pending} {document : Document} :
    document ∈ liveWith id entries ↔ ∃ entry ∈ entries, entry.isLive = true ∧
      entry.document.id? = some id ∧ entry.document = document := by
  simp only [liveWith, List.mem_map, List.mem_filter, Bool.and_eq_true, beq_iff_eq, and_assoc]

/-- All that is stored, live or not. -/
def stored (parts : List Part) (pending : SegmentBuilder) : List Pending :=
  parts.flatMap (·.builder.entries) ++ pending.entries

def put (documents : Bytes → Option Document) (id : Bytes) (document? : Option Document) :
    Bytes → Option Document :=
  fun other => if other = id then document? else documents other

def after (documents : Bytes → Option Document) (operation : Operation) :
    Bytes → Option Document :=
  match operation.key? with
  | none => documents
  | some id => put documents id operation.live?

/-- What an engine is made of, and which documents are live in it. -/
structure Holds (engine : Engine) (parts : List Part) (documents : Bytes → Option Document) :
    Prop where
  prepared : engine.isPrepared = true
  segments : engine.segments = parts.map Part.segment
  sound : ∀ part ∈ parts, part.IsSound
  complete : ∀ entry ∈ engine.pending.entries, entry.IsComplete
  distinct : (parts.map (·.generation)).Nodup
  older : ∀ part ∈ parts, part.generation.toNat < engine.nextGeneration.toNat
  coherent : engine.resolver.Coherent parts engine.nextGeneration
  live : ∀ id, liveWith id (stored parts engine.pending) = (documents id).toList

/-- Generations have been used up to a later one, at most so many of them, and
all parts that are new are younger than those before. -/
structure Advances (next later : Generation) (parts others : List Part) (steps : Nat) : Prop where
  least : next.toNat ≤ later.toNat
  most : later.toNat ≤ next.toNat + steps
  fresh : ∀ part ∈ others, part ∈ parts ∨ next.toNat ≤ part.generation.toNat

theorem Advances.refl (next : Generation) (parts : List Part) (steps : Nat) :
    Advances next next parts parts steps where
  least := Nat.le_refl _
  most := Nat.le_add_right _ _
  fresh _ member := .inl member

theorem Advances.trans {first second third : Generation} {parts others lasts : List Part}
    {steps more : Nat} (earlier : Advances first second parts others steps)
    (later : Advances second third others lasts more) :
    Advances first third parts lasts (steps + more) where
  least := Nat.le_trans earlier.least later.least
  most := by
    have := earlier.most
    have := later.most
    omega
  fresh part member := by
    rcases later.fresh part member with known | beyond
    · exact earlier.fresh part known
    · exact .inr (Nat.le_trans earlier.least beyond)

theorem liveWith_delete {documents : Bytes → Option Document} {id : Bytes}
    {before later : List Pending} {entry deleted : Pending} (live : entry.isLive = true)
    (carries : entry.document.id? = some id) (dead : deleted.isLive = false)
    (held : ∀ id, liveWith id (before ++ entry :: later) = (documents id).toList) (other : Bytes) :
    liveWith other (before ++ deleted :: later) = (put documents id none other).toList := by
  have held := held other
  rw [liveWith_append] at held ⊢
  rw [liveWith_cons_of_dead other dead, put]
  by_cases same : other = id
  · rw [same, liveWith_cons_of_live live carries] at held
    have length := congrArg List.length held
    rw [List.length_append, List.length_cons] at length
    have short : (documents id).toList.length ≤ 1 := by cases documents id <;> simp
    rw [if_pos same, same, List.eq_nil_of_length_eq_zero (by omega : (liveWith id before).length = 0),
      List.eq_nil_of_length_eq_zero (by omega : (liveWith id later).length = 0)]
    rfl
  · rw [if_neg same, ← held, liveWith_cons_of_ne]
    intro equal
    rw [carries] at equal
    exact same (Option.some.inj equal).symm

theorem exists_modify_eq {α : Type} {items : List α} {position : Nat} {item : α}
    (there : items[position]? = some item) :
    ∃ before later, items = before ++ item :: later ∧
      ∀ change, items.modify position change = before ++ change item :: later := by
  induction items generalizing position with
  | nil => cases there
  | cons first items ih =>
      cases position with
      | zero =>
          cases there
          exact ⟨[], items, rfl, fun change => List.modify_zero_cons ..⟩
      | succ position =>
          obtain ⟨before, later, same, modified⟩ := ih there
          refine ⟨first :: before, later, congrArg (first :: ·) same, fun change => ?_⟩
          rw [List.modify_succ_cons, modified]
          rfl

theorem replaceFirst_append {before later : List Segment} {segment : Segment}
    (distinct : ∀ other ∈ before, other.generation ≠ segment.generation)
    (change : Segment → Segment) :
    replaceFirst segment.generation change (before ++ segment :: later) =
      before ++ change segment :: later := by
  induction before with
  | nil => exact if_pos rfl
  | cons first before ih =>
      rw [List.cons_append, replaceFirst, if_neg (distinct first List.mem_cons_self),
        ih fun other member => distinct other (List.mem_cons_of_mem _ member)]
      rfl

theorem isComplete_softDelete {builder : SegmentBuilder}
    (complete : ∀ entry ∈ builder.entries, entry.IsComplete) (position : Nat) :
    ∀ entry ∈ (builder.softDelete position).entries, entry.IsComplete := by
  intro entry member
  obtain ⟨index, there⟩ := List.mem_iff_getElem?.mp member
  rw [SegmentBuilder.softDelete_getElem?, Option.map_eq_some_iff] at there
  obtain ⟨original, there, same⟩ := there
  have known := complete original (List.mem_of_getElem? there)
  split at same
  · rw [← same]
    exact ⟨known.version, known.seqNo, known.primaryTerm, fun missing => ⟨rfl, (known.trace missing).2⟩⟩
  · rw [← same]
    exact known

theorem successor?_eq {generation : Generation} (room : generation.toNat + 1 < UInt64.size) :
    ∃ next, successor? generation = some next ∧ next.toNat = generation.toNat + 1 := by
  refine ⟨generation + 1, if_pos room, ?_⟩
  rw [UInt64.toNat_add]
  exact Nat.mod_eq_of_lt room

theorem toNat_of_successor? {generation next : Generation}
    (found : successor? generation = some next) : next.toNat = generation.toNat + 1 := by
  by_cases room : generation.toNat + 1 < UInt64.size
  · obtain ⟨_, same, number⟩ := successor?_eq room
    cases found.symm.trans same
    exact number
  · cases found.symm.trans (if_neg room)

theorem allocate_cases (engine : Engine) :
    (UInt64.size ≤ engine.nextGeneration.toNat + 1 ∧
      engine.allocate = .error (.generationsExhausted engine.nextGeneration)) ∨
    ∃ next, next.toNat = engine.nextGeneration.toNat + 1 ∧
      engine.allocate = .ok (engine.nextGeneration, { engine with nextGeneration := next }) := by
  by_cases room : engine.nextGeneration.toNat + 1 < UInt64.size
  · obtain ⟨next, found, succeeds⟩ := successor?_eq room
    refine .inr ⟨next, succeeds, ?_⟩
    rw [allocate, found]
  · refine .inl ⟨Nat.le_of_not_lt room, ?_⟩
    have none : successor? engine.nextGeneration = none := if_neg room
    rw [allocate, none]

/-- A search in the sealed parts finds the live document with an id, if that is
not pending. -/
theorem Holds.search {α : Type} {engine : Engine} {parts : List Part}
    {documents : Bytes → Option Document} (holds : engine.Holds parts documents) {id : Bytes}
    (settled : engine.pending.findLive? id = none) {resolver : Resolver}
    (coherent : resolver.Coherent parts engine.nextGeneration)
    (hit : Segment → Nat → Except SegmentError α) :
    ∃ later : Resolver, later.Coherent parts engine.nextGeneration ∧
      ((documents id = none ∧ (resolver.evict engine.segments).search (·.report id hit)
          engine.segments.reverse = (.ok none, later)) ∨
        ∃ part ∈ parts, ∃ position entry, part.builder.entries[position]? = some entry ∧
          entry.isLive = true ∧ entry.document.id? = some id ∧
          documents id = some entry.document ∧
          (resolver.evict engine.segments).search (·.report id hit) engine.segments.reverse =
            ((hit part.segment position).map some, later)) := by
  have settled : liveWith id engine.pending.entries = [] := by
    refine List.eq_nil_iff_forall_not_mem.mpr fun document member => ?_
    obtain ⟨entry, pending, live, carries, _⟩ := mem_liveWith_iff.mp member
    exact SegmentBuilder.findLive?_eq_none settled entry pending live carries
  have held := holds.live id
  rw [stored, liveWith_append, settled, List.append_nil] at held
  obtain ⟨later, coherentLater, outcome⟩ :=
    (coherent.evict engine.segments).search holds.distinct holds.sound holds.older id hit
      (List.reverse_subset.mpr (List.Subset.refl parts))
  have reversed : engine.segments.reverse = parts.reverse.map Part.segment := by
    rw [holds.segments, List.map_reverse]
  rw [reversed]
  refine ⟨later, coherentLater, ?_⟩
  rcases outcome with ⟨missing, same⟩ | ⟨part, member, position, found, same⟩
  · refine .inl ⟨?_, same⟩
    have none : liveWith id (parts.flatMap (·.builder.entries)) = [] := by
      refine List.eq_nil_iff_forall_not_mem.mpr fun document member => ?_
      obtain ⟨entry, listed, live, carries, _⟩ := mem_liveWith_iff.mp member
      obtain ⟨part, listed, inside⟩ := List.mem_flatMap.mp listed
      exact SegmentBuilder.findLive?_eq_none (missing part (List.mem_reverse.mpr listed)) entry
        inside live carries
    rw [none] at held
    exact Option.toList_eq_nil_iff.mp held.symm
  · obtain ⟨entry, there, live, carries⟩ := (SegmentBuilder.findLive?_eq_some_iff.mp found).1
    have member := List.mem_reverse.mp member
    refine .inr ⟨part, member, position, entry, there, live, carries, ?_, same⟩
    have listed : entry.document ∈ liveWith id (parts.flatMap (·.builder.entries)) :=
      mem_liveWith_iff.mpr ⟨entry, List.mem_flatMap.mpr ⟨part, member, List.mem_of_getElem? there⟩,
        live, carries, rfl⟩
    rw [held] at listed
    exact Option.mem_toList.mp listed

/-- A segment without the live document takes the place of the one with it. -/
theorem Holds.replace {engine : Engine} {parts : List Part} {documents : Bytes → Option Document}
    (holds : engine.Holds parts documents) {resolver : Resolver}
    (coherent : resolver.Coherent parts engine.nextGeneration) {part : Part} (member : part ∈ parts)
    {position : Nat} {entry : Pending} {id : Bytes}
    (there : part.builder.entries[position]? = some entry) (live : entry.isLive = true)
    (carries : entry.document.id? = some id) {next : Generation}
    (number : next.toNat = engine.nextGeneration.toNat + 1) :
    ∃ others, Holds { engine with
        resolver
        nextGeneration := next
        segments := replaceFirst part.generation
          (·.withSoftDeleted position engine.nextGeneration) engine.segments }
        others (put documents id none) ∧
      Advances engine.nextGeneration next parts others 1 := by
  obtain ⟨before, later, split⟩ := List.append_of_mem member
  have inside : position < part.builder.size := (List.getElem?_eq_some_iff.mp there).1
  obtain ⟨earlier, rest, entries, modified⟩ := exists_modify_eq there
  have distinct := holds.distinct
  rw [split, List.map_append, List.map_cons, List.nodup_middle, List.nodup_cons] at distinct
  have older := holds.older
  have known : before ++ later ⊆ parts := by
    rw [split]
    exact ((List.sublist_cons_self part later).append_left before).subset
  have cases {other : Part} (listed : other ∈ before ++
      ⟨engine.nextGeneration, part.builder.softDelete position⟩ :: later) :
      other = ⟨engine.nextGeneration, part.builder.softDelete position⟩ ∨ other ∈ parts := by
    rcases List.mem_cons.mp (List.perm_middle.mem_iff.mp listed) with same | kept
    · exact .inl same
    · exact .inr (known kept)
  -- the new part has a generation that no cache knows
  have advances : Advances engine.nextGeneration next parts (before ++
      ⟨engine.nextGeneration, part.builder.softDelete position⟩ :: later) 1 := by
    refine ⟨by omega, by omega, fun other listed => ?_⟩
    rcases cases listed with rfl | listed
    · exact .inr (Nat.le_refl _)
    · exact .inl listed
  refine ⟨_, ⟨holds.prepared, ?_, fun other listed => ?_, holds.complete, ?_, fun other listed => ?_,
    coherent.grow advances.fresh advances.least, fun other => ?_⟩, advances⟩
  · dsimp only
    rw [holds.segments, split, List.map_append, List.map_cons, List.map_append, List.map_cons]
    change replaceFirst part.segment.generation _ _ = _
    rw [replaceFirst_append fun other listed same => ?_]
    · exact congrArg (before.map Part.segment ++ · :: later.map Part.segment)
        (SegmentBuilder.withSoftDeleted_build inside ..)
    · obtain ⟨holder, inside, rfl⟩ := List.mem_map.mp listed
      exact distinct.1 (List.mem_append_left _ (List.mem_map.mpr ⟨holder, inside, same⟩))
  · rcases cases listed with rfl | listed
    · refine ⟨fun empty => ?_, isComplete_softDelete (holds.sound part member).complete position⟩
      rw [SegmentBuilder.softDelete, modified] at empty
      simp at empty
    · exact holds.sound other listed
  · rw [List.map_append, List.map_cons, List.nodup_middle, List.nodup_cons]
    refine ⟨fun listed => ?_, distinct.2⟩
    rw [← List.map_append] at listed
    obtain ⟨other, listed, same⟩ := List.mem_map.mp listed
    have below := older other (known listed)
    rw [same] at below
    exact Nat.lt_irrefl _ below
  · rcases cases listed with rfl | listed
    · exact Nat.lt_of_lt_of_eq (Nat.lt_succ_self _) number.symm
    · have below := older other listed
      dsimp only
      omega
  · have held := holds.live
    simp only [stored, split, List.flatMap_append, List.flatMap_cons, entries, List.append_assoc,
      List.cons_append] at held
    simp only [stored, List.flatMap_append, List.flatMap_cons, SegmentBuilder.softDelete, modified,
      List.append_assoc, List.cons_append]
    rw [← List.append_assoc]
    refine liveWith_delete live carries rfl (fun id => ?_) other
    rw [List.append_assoc]
    exact held id

/-- Deleting the live copy of a document fails only if the generations run out. -/
theorem Holds.removeLive {engine : Engine} {parts : List Part}
    {documents : Bytes → Option Document} (holds : engine.Holds parts documents) (id : Bytes) :
    (UInt64.size ≤ engine.nextGeneration.toNat + 1 ∧
      ∃ error later, engine.removeLive id = (.error error, later)) ∨
    ∃ later others, engine.removeLive id = (.ok (), later) ∧
      later.Holds others (put documents id none) ∧
        Advances engine.nextGeneration later.nextGeneration parts others 1 := by
  unfold Engine.removeLive
  cases found : engine.pending.findLive? id with
  | some position =>
      obtain ⟨entry, there, live, carries⟩ := (SegmentBuilder.findLive?_eq_some_iff.mp found).1
      obtain ⟨before, rest, same, modified⟩ := exists_modify_eq there
      refine .inr ⟨_, parts, rfl, ⟨holds.prepared, holds.segments, holds.sound,
        isComplete_softDelete holds.complete position, holds.distinct, holds.older, holds.coherent,
        fun other => ?_⟩, Advances.refl _ parts 1⟩
      have held := holds.live
      simp only [stored, same] at held
      rw [stored, SegmentBuilder.softDelete, modified, ← List.append_assoc]
      refine liveWith_delete live carries rfl (fun id => ?_) other
      rw [List.append_assoc]
      exact held id
  | none =>
      have searched := holds.search found holds.coherent
        fun segment position => Lookup.versionHit segment position false
      obtain ⟨resolver, coherent, outcome⟩ := searched
      have answered : engine.resolver.version engine.segments id false =
          (engine.resolver.evict engine.segments).search
            (·.report id fun segment position => Lookup.versionHit segment position false)
            engine.segments.reverse := rfl
      rw [answered]
      rcases outcome with ⟨absent, same⟩ | ⟨part, member, position, entry, there, live, carries, _, same⟩
      · rw [same]
        refine .inr ⟨_, parts, rfl, ⟨holds.prepared, holds.segments, holds.sound, holds.complete,
          holds.distinct, holds.older, coherent, fun other => ?_⟩, Advances.refl _ parts 1⟩
        have held := holds.live other
        have kept : put documents id none other = documents other := by
          rw [put]
          split
          · next same => rw [same, absent]
          · rfl
        rw [kept]
        exact held
      · obtain ⟨_, _, _, _, _, _, hit⟩ := (holds.sound part member).versionHit there false
        rw [same, hit]
        dsimp only [Except.map]
        rcases allocate_cases { engine with resolver } with ⟨full, refused⟩ | ⟨next, number, allocated⟩
        · rw [refused]
          exact .inl ⟨full, _, _, rfl⟩
        · rw [allocated]
          obtain ⟨others, held, advances⟩ :=
            holds.replace coherent member there live carries number
          exact .inr ⟨_, others, rfl, held, advances⟩

theorem after_put {operation : Operation} {id : Bytes} (key : operation.key? = some id)
    (documents : Bytes → Option Document) (document? : Option Document) :
    after (put documents id document?) operation = after documents operation := by
  unfold after
  rw [key]
  funext other
  dsimp only [put]
  split <;> rfl

theorem Holds.collect {engine : Engine} {parts : List Part}
    {documents : Bytes → Option Document} (holds : engine.Holds parts documents)
    {operation : Operation} (free : ∀ id, operation.key? = some id → documents id = none)
    (sources : Std.ExtTreeMap String Bytes) :
    Holds { engine.collect operation.document with sources } parts
      (after documents operation) := by
  refine ⟨holds.prepared, holds.segments, holds.sound, fun entry member => ?_, holds.distinct,
    holds.older, holds.coherent, fun id => ?_⟩
  · rcases List.mem_append.mp member with before | added
    · exact holds.complete entry before
    · rw [List.mem_singleton.mp added]
      exact operation.isComplete_document
  · have held := holds.live id
    have grown : stored parts (engine.collect operation.document).pending =
        stored parts engine.pending ++
          [⟨operation.document, !operation.document.softDeleted⟩] := (List.append_assoc ..).symm
    have named := operation.id?_document
    dsimp only
    rw [grown, liveWith_append, held, after]
    cases key : operation.key? with
    | none =>
        rw [key] at named
        simp [liveWith, named]
    | some other =>
        rw [key] at named
        dsimp only [put]
        by_cases same : id = other
        · rw [if_pos same, same, free other key, Operation.live?]
          cases deleted : operation.document.softDeleted <;> simp [liveWith, named]
        · rw [if_neg same]
          simp [liveWith, named, Ne.symm same]

/-- An operation on a document deletes the live one and leaves its own. -/
theorem perform_of_key {operation : Operation} {id : Bytes} (key : operation.key? = some id)
    (engine : Engine) :
    engine.perform operation =
      match engine.removeLive id with
      | (.error error, engine) => (.error error, engine)
      | (.ok (), engine) =>
          (.ok (), { engine.collect operation.document with
            sources := operation.sourcesAfter engine.sources }) := by
  unfold Operation.key? Operation.id? at key
  unfold perform Operation.document Operation.sourcesAfter
  cases action : operation.action with
  | index name version source =>
      rw [action] at key
      cases key
      rfl
  | delete name version =>
      rw [action] at key
      cases key
      rfl
  | noOp reason =>
      rw [action] at key
      cases key

theorem perform_of_no_key {operation : Operation} (key : operation.key? = none)
    (engine : Engine) : engine.perform operation = (.ok (), engine.collect operation.document) := by
  unfold Operation.key? Operation.id? at key
  unfold perform Operation.document
  cases action : operation.action with
  | index name version source =>
      rw [action] at key
      cases key
  | delete name version =>
      rw [action] at key
      cases key
  | noOp reason => rfl

/-- Performing an operation fails only if the generations run out. -/
theorem Holds.perform {engine : Engine} {parts : List Part}
    {documents : Bytes → Option Document} (holds : engine.Holds parts documents)
    (operation : Operation) :
    (UInt64.size ≤ engine.nextGeneration.toNat + 1 ∧
      ∃ error later, engine.perform operation = (.error error, later)) ∨
    ∃ later others, engine.perform operation = (.ok (), later) ∧
      later.Holds others (after documents operation) ∧
        Advances engine.nextGeneration later.nextGeneration parts others 1 := by
  cases key : operation.key? with
  | none =>
      refine .inr ⟨_, parts, perform_of_no_key key engine, ?_, Advances.refl _ parts 1⟩
      exact holds.collect (fun id carries => by rw [key] at carries; cases carries) engine.sources
  | some id =>
      rw [perform_of_key key engine]
      rcases holds.removeLive id with
        ⟨full, error, later, failed⟩ | ⟨later, others, removed, held, advances⟩
      · rw [failed]
        exact .inl ⟨full, error, later, rfl⟩
      · rw [removed]
        refine .inr ⟨_, others, rfl, ?_, advances⟩
        rw [← after_put key documents none]
        refine held.collect (fun other same => ?_) _
        rw [key] at same
        cases same
        exact if_pos rfl

/-- Applying an operation fails only if the generations run out. -/
theorem Holds.apply {engine : Engine} {parts : List Part}
    {documents : Bytes → Option Document} (holds : engine.Holds parts documents)
    {operation : Operation} (admissible : 0 ≤ operation.seqNo) :
    (UInt64.size ≤ engine.nextGeneration.toNat + 1 ∧
      ∃ error later, engine.apply operation = (.error error, later)) ∨
    ∃ later others, engine.apply operation = (.ok (), later) ∧
      later.Holds others (after documents operation) ∧
        Advances engine.nextGeneration later.nextGeneration parts others 1 := by
  unfold Engine.apply
  rw [holds.prepared, Bool.not_true, if_neg Bool.false_ne_true,
    if_neg (Int64.not_lt.mpr admissible)]
  rcases holds.perform operation with
    ⟨full, error, later, failed⟩ | ⟨later, others, performed, held, advances⟩
  · rw [failed]
    exact .inl ⟨full, error, later, rfl⟩
  · rw [performed]
    exact .inr ⟨_, others, rfl, ⟨held.prepared, held.segments, held.sound, held.complete,
      held.distinct, held.older, held.coherent, held.live⟩, advances⟩

/-- Refreshing keeps the documents and leaves nothing pending; it fails only if
the generations run out. -/
theorem Holds.refresh {engine : Engine} {parts : List Part}
    {documents : Bytes → Option Document} (holds : engine.Holds parts documents) :
    (UInt64.size ≤ engine.nextGeneration.toNat + 1 ∧
      ∃ error, engine.refresh = .error error) ∨
    ∃ later others, engine.refresh = .ok later ∧ later.Holds others documents ∧
      later.pending.entries = [] ∧
        Advances engine.nextGeneration later.nextGeneration parts others 1 := by
  unfold Engine.refresh
  by_cases empty : engine.pending.entries = []
  · rw [if_pos (List.isEmpty_iff.mpr empty)]
    exact .inr ⟨engine, parts, rfl, holds, empty, .refl _ parts 1⟩
  · rw [if_neg (fun same => empty (List.isEmpty_iff.mp same))]
    rcases allocate_cases engine with ⟨full, refused⟩ | ⟨next, number, allocated⟩
    · rw [refused]
      exact .inl ⟨full, _, rfl⟩
    · rw [allocated]
      have advances : Advances engine.nextGeneration next parts
          (parts ++ [⟨engine.nextGeneration, engine.pending⟩]) 1 := by
        refine ⟨by omega, by omega, fun part member => ?_⟩
        rcases List.mem_append.mp member with before | added
        · exact .inl before
        · rw [List.mem_singleton.mp added]
          exact .inr (Nat.le_refl _)
      refine .inr ⟨_, _, rfl, ⟨holds.prepared, ?_, fun part member => ?_,
        fun entry member => absurd member List.not_mem_nil, ?_, fun part member => ?_,
        holds.coherent.grow advances.fresh advances.least, fun id => ?_⟩, rfl, advances⟩
      · dsimp only
        rw [holds.segments, List.map_append]
        rfl
      · rcases List.mem_append.mp member with before | added
        · exact holds.sound part before
        · rw [List.mem_singleton.mp added]
          exact ⟨empty, holds.complete⟩
      · rw [List.map_append, List.nodup_append]
        refine ⟨holds.distinct, List.nodup_singleton _, fun generation before other added => ?_⟩
        obtain ⟨part, member, rfl⟩ := List.mem_map.mp before
        rw [List.map_singleton, List.mem_singleton] at added
        intro same
        have older := holds.older part member
        rw [same, added] at older
        exact Nat.lt_irrefl _ older
      · rcases List.mem_append.mp member with before | added
        · exact Nat.lt_trans (holds.older part before) (by dsimp only; omega)
        · rw [List.mem_singleton.mp added]
          dsimp only
          omega
      · have held := holds.live id
        rw [stored] at held ⊢
        rw [List.flatMap_append, List.append_assoc]
        simpa using held

theorem survey_older {segments : List Segment} {tracker surveyed : Tracker}
    {next later : Generation} (accepted : survey segments tracker next = .ok (surveyed, later)) :
    next.toNat ≤ later.toNat ∧ ∀ segment ∈ segments,
      segment.generation.toNat < later.toNat ∧ ∃ lookup, Lookup.ofSegment segment = .ok lookup := by
  induction segments generalizing tracker next with
  | nil =>
      cases accepted
      exact ⟨Nat.le_refl _, fun segment member => absurd member List.not_mem_nil⟩
  | cons segment segments ih =>
      unfold survey at accepted
      split at accepted
      · cases accepted
      · next lookup bound =>
          split at accepted
          · cases accepted
          · next beyond found =>
              obtain ⟨least, older⟩ := ih accepted
              have number := toNat_of_successor? found
              have upper : next.toNat ≤ later.toNat ∧ beyond.toNat ≤ later.toNat := by
                split at least
                · next below => exact ⟨Nat.le_trans (UInt64.le_iff_toNat_le.mp below) least, least⟩
                · next above =>
                    have above := UInt64.not_le.mp above
                    exact ⟨least, Nat.le_trans (Nat.le_of_lt (UInt64.lt_iff_toNat_lt.mp above)) least⟩
              refine ⟨upper.1, fun other member => ?_⟩
              rcases List.mem_cons.mp member with rfl | member
              · exact ⟨by omega, lookup, bound⟩
              · exact older other member

/-- A lookup cannot be bound to a segment without positions. -/
theorem filled_of_ofSegment {builder : SegmentBuilder} {generation : Generation} {lookup : Lookup}
    (bound : Lookup.ofSegment (builder.build generation) = .ok lookup) : builder.entries ≠ [] := by
  intro empty
  have versions : (builder.build generation).versions?.isNone = true := by
    rw [SegmentBuilder.build, SegmentBuilder.column?, empty]
    rfl
  unfold Lookup.ofSegment at bound
  rw [versions] at bound
  split at bound <;> cases bound

/-- A prepared engine holds what is live in its segments. -/
theorem holds_prepare {engine prepared : Engine} {parts : List Part}
    {documents : Bytes → Option Document}
    (accepted : engine.prepare (parts.map Part.segment) = .ok prepared)
    (complete : ∀ part ∈ parts, ∀ entry ∈ part.builder.entries, entry.IsComplete)
    (distinct : (parts.map (·.generation)).Nodup)
    (live : ∀ id, liveWith id (parts.flatMap (·.builder.entries)) = (documents id).toList) :
    prepared.Holds parts documents ∧ prepared.pending.entries = [] := by
  obtain ⟨tracker, nextGeneration, surveyed, rfl⟩ := prepare_ok accepted
  have older := (survey_older surveyed).2
  refine ⟨⟨rfl, rfl, fun part member => ⟨?_, complete part member⟩,
    fun entry member => absurd member List.not_mem_nil, distinct,
    fun part member => (older _ (List.mem_map_of_mem member)).1, Resolver.coherent_empty _ _,
    fun id => ?_⟩, rfl⟩
  · obtain ⟨_, lookup, bound⟩ := older _ (List.mem_map_of_mem member)
    exact filled_of_ofSegment bound
  · rw [stored, List.append_nil]
    exact live id

theorem findLive?_of_empty {builder : SegmentBuilder} (empty : builder.entries = [])
    (id : Bytes) : builder.findLive? id = none := by
  rw [SegmentBuilder.findLive?, empty]
  rfl

theorem Holds.seqNo {engine : Engine} {parts : List Part}
    {documents : Bytes → Option Document} (holds : engine.Holds parts documents)
    (settled : engine.pending.entries = []) {resolver : Resolver}
    (coherent : resolver.Coherent parts engine.nextGeneration) (id : Bytes) :
    ∃ hit? later, resolver.seqNo engine.segments id = (.ok hit?, later) ∧
      hit?.map SeqNoHit.seqNo = (documents id).bind (·.seqNo?) ∧
        later.Coherent parts engine.nextGeneration := by
  have answered : resolver.seqNo engine.segments id =
      (resolver.evict engine.segments).search (·.report id Lookup.seqNoHit)
        engine.segments.reverse := rfl
  rw [answered]
  obtain ⟨later, coherentLater, outcome⟩ :=
    holds.search (findLive?_of_empty settled id) coherent Lookup.seqNoHit
  rcases outcome with ⟨absent, same⟩ | ⟨part, member, position, entry, there, _, _, present, same⟩
  · exact ⟨none, later, same, by rw [absent]; rfl, coherentLater⟩
  · have complete := (holds.sound part member).complete entry (List.mem_of_getElem? there)
    obtain ⟨seqNo, known⟩ := Option.isSome_iff_exists.mp complete.seqNo
    have hit : Lookup.seqNoHit part.segment position = .ok _ :=
      SegmentBuilder.seqNoHit_build part.generation there known
    rw [hit] at same
    refine ⟨_, later, same, ?_, coherentLater⟩
    rw [present, Option.bind_some, known]
    rfl

end Engine

/-- What a search reports of a document besides its place. -/
structure Numbers where
  version? : Option Int64
  seqNo? : Option Int64
  primaryTerm? : Option Int64
deriving Repr, DecidableEq

def VersionHit.numbers (hit : VersionHit) : Numbers :=
  ⟨some hit.version, hit.seqNo?, hit.primaryTerm?⟩

def Document.numbers (document : Document) : Numbers :=
  ⟨document.version?, document.seqNo?, document.primaryTerm?⟩

namespace Engine

/-- What a search reports of the document with an id, if there is one. -/
def reports (engine : Engine) (id : String) : Except EngineError (Option Numbers) :=
  (engine.get id).1.map (·.map VersionHit.numbers)

theorem Holds.reports {engine : Engine} {parts : List Part}
    {documents : Bytes → Option Document} (holds : engine.Holds parts documents)
    (settled : engine.pending.entries = []) (id : String) :
    engine.reports id = .ok ((documents (Text.Utf8.encode id)).map Document.numbers) := by
  have answered : engine.reports id =
      (((engine.resolver.evict engine.segments).search
        (·.report (Text.Utf8.encode id) fun segment position =>
          Lookup.versionHit segment position true)
        engine.segments.reverse).1.mapError EngineError.unresolved).map
          (·.map VersionHit.numbers) := rfl
  obtain ⟨later, _, outcome⟩ := holds.search (findLive?_of_empty settled (Text.Utf8.encode id))
    holds.coherent fun segment position => Lookup.versionHit segment position true
  rw [answered]
  rcases outcome with ⟨absent, same⟩ | ⟨part, member, position, entry, there, _, _, present, same⟩
  · rw [same, absent]
    rfl
  · obtain ⟨version, seqNo, term, knownVersion, knownSeqNo, knownTerm, hit⟩ :=
      (holds.sound part member).versionHit there true
    rw [same, hit, present, Option.map_some, Document.numbers, knownVersion, knownSeqNo, knownTerm]
    rfl

end Engine

end ShardSync
