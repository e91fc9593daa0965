import Mathlib.Data.List.ReduceOption
import ShardSync.Segment.Builder
import ShardSync.Segment.Lookup

/-!
# Sealed builders

A sealed segment answers as its builder does: its columns hold the numbers of
the collected documents, its live positions are those of the live ones, and
deleting a position of it is the same as deleting the document before sealing.
-/

set_option autoImplicit false

namespace ShardSync

namespace SegmentBuilder

/-- A column that is there has a cell for each document. -/
theorem column?_eq_some {builder : SegmentBuilder} {field : Document → Option Int64}
    {entry : Pending} (member : entry ∈ builder.entries)
    (known : (field entry.document).isSome = true) :
    builder.column? field = some ⟨builder.entries.map (field ·.document)⟩ := by
  rw [column?]
  exact if_pos (List.any_eq_true.mpr ⟨_, List.mem_map_of_mem member, known⟩)

theorem column?_eq_none {builder : SegmentBuilder} {field : Document → Option Int64}
    (unknown : ∀ entry ∈ builder.entries, field entry.document = none) :
    builder.column? field = none := by
  rw [column?]
  refine if_neg fun known => ?_
  obtain ⟨cell, listed, filled⟩ := List.any_eq_true.mp known
  obtain ⟨entry, member, rfl⟩ := List.mem_map.mp listed
  rw [unknown entry member] at filled
  cases filled

theorem column?_cases (builder : SegmentBuilder) (field : Document → Option Int64) :
    builder.column? field = some ⟨builder.entries.map (field ·.document)⟩ ∨
      builder.column? field = none ∧ ∀ entry ∈ builder.entries, field entry.document = none := by
  by_cases known : ∃ entry ∈ builder.entries, (field entry.document).isSome = true
  · obtain ⟨entry, member, known⟩ := known
    exact .inl (column?_eq_some member known)
  · have unknown : ∀ entry ∈ builder.entries, field entry.document = none := fun entry member =>
      Option.not_isSome_iff_eq_none.mp fun some => known ⟨entry, member, some⟩
    exact .inr ⟨column?_eq_none unknown, unknown⟩

/-- The cells of a column, which are blank where there is no column. -/
theorem column?_getD (builder : SegmentBuilder) (field : Document → Option Int64) :
    (builder.column? field).getD (.blank builder.size) =
      ⟨builder.entries.map (field ·.document)⟩ := by
  rcases builder.column?_cases field with there | ⟨missing, unknown⟩
  · rw [there, Option.getD_some]
  · rw [missing, Option.getD_none, Column.blank, size, List.map_congr_left unknown,
      List.map_const']

/-- A column holds the field of the document at each position. -/
theorem column?_get? (builder : SegmentBuilder) (field : Document → Option Int64)
    (position : Nat) :
    (builder.column? field).bind (·.get? position) =
      builder.entries[position]?.bind (field ·.document) := by
  rcases builder.column?_cases field with there | ⟨missing, unknown⟩
  · rw [there, Option.bind_some, Column.get?, List.getElem?_map]
    cases builder.entries[position]? <;> rfl
  · rw [missing, Option.bind_none, eq_comm, Option.bind_eq_none_iff]
    exact fun entry there => unknown entry (List.mem_of_getElem? there)

theorem pairwise_zipIdx {α : Type} (items : List α) :
    items.zipIdx.Pairwise fun first second => first.2 < second.2 := by
  refine List.pairwise_map.mp ?_
  rw [List.zipIdx_map_snd]
  exact List.pairwise_lt_range'

theorem getLast?_eq_max? {positions : List Nat} (ordered : positions.Pairwise (· < ·)) :
    positions.getLast? = positions.max? := by
  cases last : positions.getLast? with
  | none => simp [List.getLast?_eq_none_iff.mp last]
  | some highest =>
      obtain ⟨earlier, rfl⟩ := List.getLast?_eq_some_iff.mp last
      refine (List.max?_eq_some_iff.mpr ⟨List.mem_concat_self, fun position member => ?_⟩).symm
      rcases List.mem_append.mp member with before | same
      · exact Nat.le_of_lt
          ((List.pairwise_append.mp ordered).2.2 position before highest List.mem_cons_self)
      · exact Nat.le_of_eq (List.mem_singleton.mp same)

theorem mem_values_column?_iff {builder : SegmentBuilder} {field : Document → Option Int64}
    {value : Int64} :
    value ∈ (builder.column? field).elim [] (·.values) ↔
      ∃ entry ∈ builder.entries, field entry.document = some value := by
  rcases builder.column?_cases field with there | ⟨missing, unknown⟩
  · rw [there, Option.elim_some, Column.values, List.reduceOption_mem_iff, List.mem_map]
  · rw [missing, Option.elim_none]
    refine iff_of_false List.not_mem_nil ?_
    rintro ⟨entry, member, known⟩
    rw [unknown entry member] at known
    cases known

theorem mask?_cases (builder : SegmentBuilder) :
    builder.mask? = some (builder.entries.map (·.isLive)) ∨
      builder.mask? = none ∧ ∀ entry ∈ builder.entries, entry.isLive = true := by
  by_cases all : (builder.entries.map (·.isLive)).all id = true
  · refine .inr ⟨if_pos all, fun entry member => ?_⟩
    exact List.all_eq_true.mp all _ (List.mem_map_of_mem member)
  · exact .inl (if_neg all)

/-- The mask has an entry for each document, and all of them are live where there is none. -/
theorem mask?_getD (builder : SegmentBuilder) :
    builder.mask?.getD (.replicate builder.size true) = builder.entries.map (·.isLive) := by
  rcases builder.mask?_cases with there | ⟨missing, live⟩
  · rw [there, Option.getD_some]
  · rw [missing, Option.getD_none, size, List.map_congr_left live, List.map_const']

theorem isLive_build (builder : SegmentBuilder) (generation : Generation) (position : Nat) :
    (builder.build generation).isLive position = builder.entries[position]?.any (·.isLive) := by
  rw [Segment.isLive, build]
  dsimp only
  rcases builder.mask?_cases with there | ⟨missing, live⟩
  · rw [there]
    dsimp only
    rw [List.getElem?_map]
    cases builder.entries[position]? <;> rfl
  · rw [missing, size]
    dsimp only
    cases there : builder.entries[position]? with
    | none => exact decide_eq_false (Nat.not_lt.mpr (List.getElem?_eq_none_iff.mp there))
    | some entry =>
        rw [Option.any_some, live entry (List.mem_of_getElem? there)]
        exact decide_eq_true (List.getElem?_eq_some_iff.mp there).1

/-- The ids, with the positions of the documents that carry them. -/
def named (builder : SegmentBuilder) : List (Bytes × Nat) :=
  builder.entries.zipIdx.filterMap fun (entry, position) =>
    entry.document.id?.map fun id => (id, position)

theorem ids?_eq (builder : SegmentBuilder) :
    builder.ids? = if builder.named.isEmpty then none
      else some (builder.named.foldr (fun (id, position) ids => post ids id position) ∅) := rfl

theorem getD_foldr_post (named : List (Bytes × Nat)) (id : Bytes) :
    (named.foldr (fun (id, position) ids => post ids id position) ∅).getD id [] =
      (named.filter (·.1 == id)).map (·.2) := by
  induction named with
  | nil => rfl
  | cons first named ih =>
      rw [List.foldr_cons, List.filter_cons]
      dsimp only [post]
      rw [Std.ExtTreeMap.getD_insert]
      by_cases same : first.1 = id
      · rw [if_pos (Std.LawfulEqCmp.compare_eq_iff_eq.mpr same), if_pos (beq_iff_eq.mpr same), same]
        exact congrArg (first.2 :: ·) ih
      · rw [if_neg fun equal => same (Std.LawfulEqCmp.compare_eq_iff_eq.mp equal),
          if_neg fun equal => same (beq_iff_eq.mp equal)]
        exact ih

/-- The postings of an id are the positions of the documents that carry it. -/
theorem postings?_build (builder : SegmentBuilder) (generation : Generation) (id : Bytes) :
    ((builder.build generation).postings? id).getD [] =
      (builder.named.filter (·.1 == id)).map (·.2) := by
  rw [← getD_foldr_post, Segment.postings?, build]
  dsimp only
  rw [ids?_eq]
  split
  · next empty =>
      rw [List.isEmpty_iff.mp empty]
      rfl
  · rw [Option.bind_some, Std.ExtTreeMap.getD_eq_getD_getElem?]

theorem filter_postings {isLive : Nat → Bool} {id : Bytes} (places : List (Pending × Nat))
    (known : ∀ place ∈ places, isLive place.2 = place.1.isLive) :
    (((places.filterMap fun (entry, position) =>
        entry.document.id?.map fun id => (id, position)).filter (·.1 == id)).map (·.2)).filter isLive =
      (places.filter fun (entry, _) => entry.isLive && entry.document.id? == some id).map (·.2) := by
  induction places with
  | nil => rfl
  | cons place places ih =>
      have here := known place List.mem_cons_self
      have further := ih fun other member => known other (List.mem_cons_of_mem _ member)
      cases named : place.1.document.id? with
      | none => simp [named, further]
      | some other =>
          by_cases same : other = id
          · by_cases live : place.1.isLive = true <;> simp [named, same, here, live, further]
          · simp [named, same, further]

/-- A search in a sealed segment finds what is found in the builder. -/
theorem search?_build (builder : SegmentBuilder) (generation : Generation) (id : Bytes) :
    Lookup.search? (builder.build generation) id = builder.findLive? id := by
  rw [Lookup.search?, postings?_build, named, filter_postings, findLive?, ← List.head?_filter,
    List.filter_reverse, List.head?_reverse, List.getLast?_map]
  rintro ⟨entry, position⟩ member
  rw [isLive_build, List.mk_mem_zipIdx_iff_getElem?.mp member]
  rfl

/-- What is collected of the documents but the mark of the deleted one. -/
theorem filterMap_zipIdx_modify {β : Type} {read : Pending × Nat → Option β}
    {change : Pending → Pending}
    (same : ∀ entry position, read (change entry, position) = read (entry, position))
    (entries : List Pending) (position start : Nat) :
    ((entries.modify position change).zipIdx start).filterMap read =
      (entries.zipIdx start).filterMap read := by
  induction entries generalizing position start with
  | nil => cases position <;> rfl
  | cons entry entries ih =>
      cases position with
      | zero =>
          rw [List.modify_zero_cons, List.zipIdx_cons, List.zipIdx_cons, List.filterMap_cons,
            List.filterMap_cons, same]
      | succ position =>
          rw [List.modify_succ_cons, List.zipIdx_cons, List.zipIdx_cons, List.filterMap_cons,
            List.filterMap_cons, ih]

/-- What is read off each document but the mark of the deleted one. -/
theorem map_modify {β : Type} {read : Pending → β} {change : Pending → Pending}
    (same : ∀ entry, read (change entry) = read entry) (entries : List Pending) (position : Nat) :
    (entries.modify position change).map read = entries.map read := by
  refine List.ext_getElem? fun other => ?_
  rw [List.getElem?_map, List.getElem?_map, List.getElem?_modify]
  cases entries[other]? with
  | none => rfl
  | some entry =>
      dsimp only [Option.map_eq_map, Option.map_some]
      split
      · rw [same]
      · rfl

/-- What is read off each document, where the deleted one reads otherwise. -/
theorem map_modify_eq_set {β : Type} {read : Pending → β} {change : Pending → Pending} {value : β}
    (read_change : ∀ entry, read (change entry) = value) (entries : List Pending)
    (position : Nat) :
    (entries.modify position change).map read = (entries.map read).set position value := by
  refine List.ext_getElem? fun other => ?_
  rw [List.getElem?_map, List.getElem?_modify, List.getElem?_set, List.getElem?_map,
    List.length_map]
  by_cases here : position = other
  · rw [if_pos here, ← here]
    cases there : entries[position]? with
    | none => rw [if_neg (Nat.not_lt.mpr (List.getElem?_eq_none_iff.mp there))]; rfl
    | some entry =>
        rw [if_pos (List.getElem?_eq_some_iff.mp there).1]
        simp [read_change]
  · rw [if_neg here]
    cases entries[other]? <;> simp [here]

theorem softDelete_getElem? (builder : SegmentBuilder) (position other : Nat) :
    (builder.softDelete position).entries[other]? =
      (builder.entries[other]?).map fun entry =>
        if position = other then ⟨{ entry.document with softDeleted := true }, false⟩ else entry := by
  rw [softDelete, List.getElem?_modify]
  cases builder.entries[other]? with
  | none => rfl
  | some entry =>
      rw [Option.map_eq_map, Option.map_some]

/-- Deleting a position of a sealed segment is deleting the document before sealing. -/
theorem withSoftDeleted_build {builder : SegmentBuilder} {position : Nat}
    (inside : position < builder.size) (generation next : Generation) :
    (builder.build generation).withSoftDeleted position next =
      (builder.softDelete position).build next := by
  have there : ∃ entry, builder.entries[position]? = some entry :=
    ⟨_, List.getElem?_eq_getElem inside⟩
  obtain ⟨entry, there⟩ := there
  have within : position < (builder.build generation).maxDoc := inside
  have size : (builder.softDelete position).size = builder.size := List.length_modify ..
  have ids : (builder.softDelete position).ids? = builder.ids? := by
    have same : (builder.softDelete position).named = builder.named := by
      unfold named softDelete
      refine filterMap_zipIdx_modify ?_ _ _ _
      exact fun _ _ => rfl
    rw [ids?_eq, ids?_eq, same]
  have column {field : Document → Option Int64}
      (kept : ∀ document : Document, field { document with softDeleted := true } = field document) :
      (builder.softDelete position).column? field = builder.column? field := by
    have same : (builder.softDelete position).entries.map (field ·.document) =
        builder.entries.map (field ·.document) :=
      map_modify (fun entry => kept entry.document) ..
    rw [column?, column?, same]
  have deleted : ⟨{ entry.document with softDeleted := true }, false⟩ ∈
      (builder.softDelete position).entries := by
    refine List.mem_iff_getElem?.mpr ⟨position, ?_⟩
    rw [softDelete_getElem?, there, Option.map_some, if_pos rfl]
  have mask : (builder.softDelete position).mask? =
      some ((builder.mask?.getD (.replicate builder.size true)).set position false) := by
    rcases (builder.softDelete position).mask?_cases with there | ⟨_, live⟩
    · rw [there, mask?_getD]
      refine congrArg some (map_modify_eq_set ?_ _ _)
      exact fun _ => rfl
    · cases live _ deleted
  have marks : (builder.softDelete position).column? (fun document => mark document.softDeleted) =
      some (((builder.column? fun document => mark document.softDeleted).getD
        (.blank builder.size)).set position 1) := by
    rw [column?_eq_some deleted rfl, column?_getD]
    refine congrArg (some <| Column.mk ·) (map_modify_eq_set ?_ _ _)
    exact fun _ => rfl
  rw [Segment.withSoftDeleted, if_pos within]
  simp only [build, size, ids, mask, marks]
  rw [column fun _ => rfl, column fun _ => rfl, column fun _ => rfl, column fun _ => rfl]

end SegmentBuilder

/-- A document with all of its numbers, that has an id or is the trace of a no-op. -/
structure Pending.IsComplete (entry : Pending) : Prop where
  version : entry.document.version?.isSome
  seqNo : entry.document.seqNo?.isSome
  primaryTerm : entry.document.primaryTerm?.isSome
  trace : entry.document.id? = none →
    entry.document.softDeleted = true ∧ entry.document.tombstone = true

namespace SegmentBuilder

theorem column?_isSome {builder : SegmentBuilder} {field : Document → Option Int64}
    {position : Nat} {entry : Pending} {value : Int64}
    (there : builder.entries[position]? = some entry) (known : field entry.document = some value) :
    (builder.column? field).isSome := by
  rw [column?_eq_some (List.mem_of_getElem? there) (by rw [known]; rfl)]
  rfl

/-- A lookup can be bound to what complete documents are sealed into. -/
theorem ofSegment_build {builder : SegmentBuilder} (filled : builder.entries ≠ [])
    (complete : ∀ entry ∈ builder.entries, entry.IsComplete) (generation : Generation) :
    Lookup.ofSegment (builder.build generation) = .ok { segment := builder.build generation } := by
  obtain ⟨entry, entries, same⟩ := List.exists_cons_of_ne_nil filled
  have there : builder.entries[0]? = some entry := by rw [same]; rfl
  have known := complete entry (by rw [same]; exact List.mem_cons_self)
  have versions : (builder.build generation).versions?.isNone = false := by
    obtain ⟨version, known⟩ := Option.isSome_iff_exists.mp known.version
    rw [build, Option.isNone_eq_false_iff]
    exact column?_isSome there known
  have bound : ((builder.build generation).ids?.isNone &&
      !Lookup.mayLackIds (builder.build generation)) = false := by
    cases missing : builder.ids? with
    | some ids =>
        rw [build]
        dsimp only
        rw [missing]
        rfl
    | none =>
        have unnamed : entry.document.id? = none := by
          rw [ids?_eq] at missing
          split at missing
          · next empty =>
              refine Option.eq_none_iff_forall_ne_some.mpr fun id carried => ?_
              have member : (id, 0) ∈ builder.named :=
                List.mem_filterMap.mpr ⟨(entry, 0), List.mk_mem_zipIdx_iff_getElem?.mpr there, by
                  dsimp only
                  rw [carried]
                  rfl⟩
              rw [List.isEmpty_iff.mp empty] at member
              cases member
          · cases missing
        obtain ⟨deleted, trace⟩ := known.trace unnamed
        have marks : (builder.column? fun document => mark document.softDeleted).isSome :=
          column?_isSome there (show mark entry.document.softDeleted = some 1 by rw [deleted]; rfl)
        have traces : (builder.column? fun document => mark document.tombstone).isSome :=
          column?_isSome there (show mark entry.document.tombstone = some 1 by rw [trace]; rfl)
        have marks : (builder.build generation).softDeletes?.isSome = true := marks
        have traces : (builder.build generation).tombstones?.isSome = true := traces
        rw [Lookup.mayLackIds, marks, traces]
        simp
  rw [Lookup.ofSegment, bound, versions]
  rfl

section Found

variable {builder : SegmentBuilder} {id : Bytes} {position : Nat}

/-- Whether a position holds a live document with the given id. -/
def Bears (builder : SegmentBuilder) (id : Bytes) (position : Nat) : Prop :=
  ∃ entry, builder.entries[position]? = some entry ∧ entry.isLive = true ∧
    entry.document.id? = some id

/-- The positions of the live documents with an id, in increasing order. -/
def bearers (builder : SegmentBuilder) (id : Bytes) : List Nat :=
  (builder.entries.zipIdx.filter fun (entry, _) =>
    entry.isLive && entry.document.id? == some id).map (·.2)

theorem mem_bearers_iff : position ∈ builder.bearers id ↔ builder.Bears id position := by
  rw [bearers, List.mem_map]
  constructor
  · rintro ⟨⟨entry, index⟩, member, rfl⟩
    obtain ⟨listed, suits⟩ := List.mem_filter.mp member
    simp only [Bool.and_eq_true, beq_iff_eq] at suits
    exact ⟨entry, List.mk_mem_zipIdx_iff_getElem?.mp listed, suits⟩
  · rintro ⟨entry, there, live, carried⟩
    refine ⟨(entry, position), List.mem_filter.mpr
      ⟨List.mk_mem_zipIdx_iff_getElem?.mpr there, ?_⟩, rfl⟩
    simp [live, carried]

/-- The search from the end finds the greatest of the positions. -/
theorem findLive?_eq_max? (builder : SegmentBuilder) (id : Bytes) :
    builder.findLive? id = (builder.bearers id).max? := by
  have ordered : (builder.bearers id).Pairwise (· < ·) :=
    List.pairwise_map.mpr ((pairwise_zipIdx builder.entries).filter _)
  rw [← getLast?_eq_max? ordered, bearers, findLive?, ← List.head?_filter,
    List.filter_reverse, List.head?_reverse, List.getLast?_map]

theorem findLive?_eq_none_iff :
    builder.findLive? id = none ↔ ∀ position, ¬ builder.Bears id position := by
  rw [findLive?_eq_max?, List.max?_eq_none_iff, List.eq_nil_iff_forall_not_mem]
  exact forall_congr' fun position => not_congr mem_bearers_iff

theorem findLive?_eq_some_iff :
    builder.findLive? id = some position ↔
      builder.Bears id position ∧ ∀ other, builder.Bears id other → other ≤ position := by
  rw [findLive?_eq_max?, List.max?_eq_some_iff]
  simp only [mem_bearers_iff]

theorem findLive?_eq_none (missing : builder.findLive? id = none) :
    ∀ entry ∈ builder.entries, entry.isLive = true → entry.document.id? ≠ some id := by
  intro entry member live carried
  obtain ⟨position, there⟩ := List.mem_iff_getElem?.mp member
  exact findLive?_eq_none_iff.mp missing position ⟨entry, there, live, carried⟩

end Found

/-- A value is read from a sealed column as it was collected. -/
theorem value_build {builder : SegmentBuilder} {position : Nat} {entry : Pending}
    (there : builder.entries[position]? = some entry)
    (generation : Generation) (field : Document → Option Int64) (name : String) :
    Lookup.value (builder.build generation) (builder.column? field) position name =
      (field entry.document).elim (.error (.missingValue generation position name)) .ok := by
  rw [Lookup.value, column?_get?, there, Option.bind_some]
  cases field entry.document <;> rfl

theorem value_column? {builder : SegmentBuilder} {field : Document → Option Int64}
    {position : Nat} {entry : Pending} {value : Int64} (generation : Generation) (name : String)
    (there : builder.entries[position]? = some entry) (known : field entry.document = some value) :
    Lookup.value (builder.build generation) (builder.column? field) position name =
      .ok value := by
  rw [value_build there, known]
  rfl

theorem seqNoHit_build {builder : SegmentBuilder} {position : Nat} {entry : Pending}
    {seqNo : Int64} (generation : Generation) (there : builder.entries[position]? = some entry)
    (known : entry.document.seqNo? = some seqNo) :
    Lookup.seqNoHit (builder.build generation) position =
      .ok { position, seqNo, generation } := by
  have value : Lookup.value (builder.build generation) (builder.build generation).seqNos? position
      "_seq_no" = .ok seqNo := value_column? _ _ there known
  rw [Lookup.seqNoHit, value]
  rfl

theorem versionHit_build {builder : SegmentBuilder} {position : Nat} {entry : Pending}
    {version seqNo primaryTerm : Int64} (generation : Generation) (withSeqNo : Bool)
    (there : builder.entries[position]? = some entry)
    (knownVersion : entry.document.version? = some version)
    (knownSeqNo : entry.document.seqNo? = some seqNo)
    (knownTerm : entry.document.primaryTerm? = some primaryTerm) :
    Lookup.versionHit (builder.build generation) position withSeqNo =
      .ok {
        position, version, generation
        seqNo? := if withSeqNo then some seqNo else none
        primaryTerm? := if withSeqNo then some primaryTerm else none } := by
  have versions : Lookup.value (builder.build generation) (builder.build generation).versions?
      position "_version" = .ok version := value_column? _ _ there knownVersion
  have seqNos : Lookup.value (builder.build generation) (builder.build generation).seqNos?
      position "_seq_no" = .ok seqNo := value_column? _ _ there knownSeqNo
  have terms : Lookup.value (builder.build generation) (builder.build generation).primaryTerms?
      position "_primary_term" = .ok primaryTerm := value_column? _ _ there knownTerm
  rw [Lookup.versionHit, versions, seqNos, terms]
  cases withSeqNo <;> rfl

end SegmentBuilder

end ShardSync
