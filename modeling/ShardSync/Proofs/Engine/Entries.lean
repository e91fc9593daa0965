import Mathlib.Data.List.Flatten
import ShardSync.Proofs.Engine.Holdings

/-!
# The entries behind the rows

The rows of an engine that was given sealed segments are those of collected documents,
and operations change them as they change the documents. So each live row has one id or
none, and counting the rows is counting ids.
-/

set_option autoImplicit false

namespace ShardSync

namespace Pending

/-- The entries after the live ones with an id have been deleted. -/
def without (id : Bytes) (entries : List Pending) : List Pending :=
  entries.map fun entry =>
    if (Row.ofPending entry).isLiveWith id then { entry with isLive := false } else entry

/-- The number of live documents that have no id. -/
def unnamed (entries : List Pending) : Nat :=
  entries.countP fun entry => entry.isLive && entry.document.id?.isNone

def liveIds (entries : List Pending) : List Bytes :=
  (entries.filter (·.isLive)).filterMap (·.document.id?)

/-- Every live document has its numbers. -/
def AreNumbered (entries : List Pending) : Prop :=
  ∀ entry ∈ entries, entry.isLive = true → (Row.ofPending entry).numbers?.isSome

theorem without_map (id : Bytes) (entries : List Pending) :
    Row.without id (entries.map Row.ofPending) = (without id entries).map Row.ofPending := by
  simp only [Row.without, without, List.map_map]
  refine List.map_congr_left fun entry _ => ?_
  simp only [Function.comp_apply]
  split <;> rfl

theorem isLiveWith_ofPending (entry : Pending) (id : Bytes) :
    (Row.ofPending entry).isLiveWith id = (entry.isLive && entry.document.id? == some id) := rfl

theorem isLiveWith_ofPending_iff {entry : Pending} {id : Bytes} :
    (Row.ofPending entry).isLiveWith id = true ↔
      entry.isLive = true ∧ entry.document.id? = some id := by
  simp [isLiveWith_ofPending]

theorem liveWith_cons (id : Bytes) (entry : Pending) (entries : List Pending) :
    Engine.liveWith id (entry :: entries) =
      if (Row.ofPending entry).isLiveWith id then entry.document :: Engine.liveWith id entries
      else Engine.liveWith id entries := by
  simp only [Engine.liveWith, List.filter_cons, ← isLiveWith_ofPending]
  split <;> rfl

theorem liveWith_without (id other : Bytes) (entries : List Pending) :
    Engine.liveWith other (without id entries) =
      if other = id then [] else Engine.liveWith other entries := by
  induction entries with
  | nil => simp [without, Engine.liveWith]
  | cons entry entries ih =>
      have first : without id (entry :: entries) =
          (if (Row.ofPending entry).isLiveWith id then { entry with isLive := false } else entry) ::
            without id entries := rfl
      rw [first, liveWith_cons, liveWith_cons, ih]
      by_cases live : (Row.ofPending entry).isLiveWith id = true
      · have carries : entry.document.id? = some id := (isLiveWith_ofPending_iff.mp live).2
        by_cases same : other = id
        · simp [live, same, isLiveWith_ofPending]
        · simp [live, same, isLiveWith_ofPending, carries, Ne.symm same]
      · by_cases same : other = id
        · simp [live, same]
        · simp [live, same]

theorem unnamed_without (id : Bytes) (entries : List Pending) :
    unnamed (without id entries) = unnamed entries := by
  rw [unnamed, without, List.countP_map]
  refine List.countP_congr fun entry _ => ?_
  by_cases live : (Row.ofPending entry).isLiveWith id = true
  · have carries : entry.document.id? = some id := (isLiveWith_ofPending_iff.mp live).2
    simp [live, carries]
  · simp [live]

theorem count_liveIds (entries : List Pending) (id : Bytes) :
    (liveIds entries).count id = (Engine.liveWith id entries).length := by
  induction entries with
  | nil => rfl
  | cons entry entries ih =>
      rw [liveWith_cons, isLiveWith_ofPending]
      cases live : entry.isLive with
      | false => simpa [liveIds, live] using ih
      | true =>
          cases named : entry.document.id? with
          | none => simpa [liveIds, live, named] using ih
          | some other =>
              by_cases same : other = id
              · simpa [liveIds, live, named, same] using ih
              · simpa [liveIds, live, named, same] using ih

theorem countP_isLive (entries : List Pending) :
    entries.countP (·.isLive) = (liveIds entries).length + unnamed entries := by
  induction entries with
  | nil => rfl
  | cons entry entries ih =>
      cases live : entry.isLive with
      | false => simpa [liveIds, unnamed, live] using ih
      | true =>
          cases named : entry.document.id? with
          | none | some =>
              simp only [liveIds, unnamed] at ih
              simp [liveIds, unnamed, live, named]
              omega

/-- If no id is live twice, the live ids are those for which there is a document. -/
theorem liveIds_of_held {entries : List Pending} {documents : Bytes → Option Document}
    (held : ∀ id, Engine.liveWith id entries = (documents id).toList) :
    (liveIds entries).Nodup ∧ ∀ id, id ∈ liveIds entries ↔ (documents id).isSome := by
  have counted (id : Bytes) : (liveIds entries).count id = (documents id).toList.length := by
    rw [count_liveIds, held]
  constructor
  · refine List.nodup_iff_count_le_one.mpr fun id => ?_
    rw [counted]
    cases documents id <;> simp
  · intro id
    rw [← List.count_pos_iff, counted]
    cases documents id <;> simp

end Pending

namespace Operation

def entry (operation : Operation) : Pending :=
  ⟨operation.document, !operation.document.softDeleted⟩

def entriesAfter (operation : Operation) (entries : List Pending) : List Pending :=
  (operation.key?.elim entries fun id => Pending.without id entries) ++ [operation.entry]

theorem rowsAfter_map (operation : Operation) (entries : List Pending) :
    operation.rowsAfter (entries.map Row.ofPending) =
      (operation.entriesAfter entries).map Row.ofPending := by
  unfold rowsAfter entriesAfter
  cases operation.key? with
  | none => simp [row, entry]
  | some id => simp [row, entry, Pending.without_map]

theorem liveWith_entriesAfter {entries : List Pending} {documents : Bytes → Option Document}
    (held : ∀ id, Engine.liveWith id entries = (documents id).toList) (operation : Operation)
    (id : Bytes) :
    Engine.liveWith id (operation.entriesAfter entries) =
      (Engine.after documents operation id).toList := by
  have named := operation.id?_document
  have added : Engine.liveWith id [operation.entry] =
      if operation.key? = some id then operation.live?.toList else [] := by
    rw [Pending.liveWith_cons, Pending.isLiveWith_ofPending, entry, named, live?]
    by_cases same : operation.key? = some id <;>
      cases deleted : operation.document.softDeleted <;> simp [same, Engine.liveWith]
  unfold entriesAfter Engine.after
  rw [Engine.liveWith_append, added]
  cases key : operation.key? with
  | none => simp [held]
  | some other =>
      by_cases same : id = other
      · simp [Pending.liveWith_without, Engine.put, same]
      · simp [Pending.liveWith_without, Engine.put, same, Ne.symm same, held]

theorem unnamed_entriesAfter (operation : Operation) (entries : List Pending) :
    Pending.unnamed (operation.entriesAfter entries) = Pending.unnamed entries := by
  have added : Pending.unnamed [operation.entry] = 0 := by
    have complete := operation.isComplete_document
    cases named : operation.document.id? with
    | none =>
        have deleted : operation.document.softDeleted = true := (complete.trace named).1
        simp [Pending.unnamed, entry, deleted]
    | some id => simp [Pending.unnamed, entry, named]
  have kept : Pending.unnamed (operation.key?.elim entries fun id => Pending.without id entries) =
      Pending.unnamed entries := by
    cases operation.key? with
    | none => rfl
    | some id => exact Pending.unnamed_without id entries
  rw [entriesAfter, Pending.unnamed, List.countP_append]
  change Pending.unnamed _ + Pending.unnamed _ = _
  rw [kept, added, Nat.add_zero]

theorem areNumbered_entriesAfter {entries : List Pending} (numbered : Pending.AreNumbered entries)
    (operation : Operation) : Pending.AreNumbered (operation.entriesAfter entries) := by
  have kept : Pending.AreNumbered
      (operation.key?.elim entries fun id => Pending.without id entries) := by
    cases operation.key? with
    | none => exact numbered
    | some id =>
        refine List.forall_mem_map.mpr fun entry member => ?_
        split
        · intro live
          cases live
        · exact numbered entry member
  refine List.forall_mem_append.mpr ⟨kept, List.forall_mem_singleton.mpr fun _ => ?_⟩
  obtain ⟨version, seqNo, primaryTerm, -⟩ := operation.isComplete_document
  simp only [entry, Row.numbers?, Row.ofPending]
  simp [Option.isSome_bind, version, seqNo, primaryTerm]

/-- The entries after operations that are applied one after the other. -/
def entriesAfterAll (operations : List Operation) (entries : List Pending) : List Pending :=
  operations.foldl (fun entries operation => operation.entriesAfter entries) entries

theorem liveWith_entriesAfterAll {operations : List Operation} {entries : List Pending}
    {documents : Bytes → Option Document}
    (held : ∀ id, Engine.liveWith id entries = (documents id).toList) (id : Bytes) :
    Engine.liveWith id (entriesAfterAll operations entries) =
      (operations.foldl Engine.after documents id).toList := by
  induction operations generalizing entries documents with
  | nil => exact held id
  | cons operation operations ih => exact ih (liveWith_entriesAfter held operation)

theorem unnamed_entriesAfterAll (operations : List Operation) (entries : List Pending) :
    Pending.unnamed (entriesAfterAll operations entries) = Pending.unnamed entries := by
  induction operations generalizing entries with
  | nil => rfl
  | cons operation operations ih => exact (ih _).trans (unnamed_entriesAfter operation entries)

end Operation

namespace Segment

def isNamed (segment : Segment) (position : Nat) : Bool :=
  (segment.ids?.elim [] (·.toList)).any (·.2.contains position)

/-- The live positions without an id. -/
def unnamed (segment : Segment) : List Nat :=
  (List.range segment.maxDoc).filter fun position =>
    segment.isLive position && !segment.isNamed position

theorem isNamed_iff {segment : Segment} {position : Nat} :
    segment.isNamed position = true ↔
      ∃ id, position ∈ (segment.postings? id).getD [] := by
  unfold isNamed postings?
  cases segment.ids? with
  | none => simp
  | some ids =>
      simp only [Option.elim_some, List.any_eq_true, List.contains_iff_mem, Option.bind_some]
      constructor
      · rintro ⟨⟨id, positions⟩, listed, member⟩
        refine ⟨id, ?_⟩
        rwa [Std.ExtTreeMap.mem_toList_iff_getElem?_eq_some.mp listed, Option.getD_some]
      · rintro ⟨id, member⟩
        cases found : ids[id]? with
        | none => simp [found] at member
        | some positions =>
            rw [found, Option.getD_some] at member
            have listed := Std.ExtTreeMap.mem_toList_iff_getElem?_eq_some.mpr found
            exact ⟨(id, positions), listed, member⟩

theorem length_livePositions_le (segments : List Segment) (id : Bytes) :
    (segments.flatMap (·.livePositions id)).length ≤
      (segments.flatMap fun segment => (List.range segment.maxDoc).filter fun position =>
        segment.isLive position && segment.isNamed position).length := by
  refine (List.Sublist.flatMap_right segments fun segment _ => ?_).length_le
  refine List.monotone_filter_right _ fun position live => ?_
  obtain ⟨live, carries⟩ := Row.isLiveWith_iff.mp live
  exact Bool.and_eq_true_iff.mpr ⟨live, isNamed_iff.mpr ⟨id, List.contains_iff_mem.mp carries⟩⟩

theorem length_unnamed_build (builder : SegmentBuilder) (generation : Generation) :
    (builder.build generation).unnamed.length = Pending.unnamed builder.entries := by
  have each : (List.range builder.size).map (fun position =>
        (builder.build generation).isLive position &&
          !(builder.build generation).isNamed position) =
      builder.entries.map fun entry => entry.isLive && entry.document.id?.isNone := by
    refine List.ext_getElem (by simp [SegmentBuilder.size]) fun position _ within => ?_
    rw [List.length_map] at within
    have there : builder.entries[position]? = some builder.entries[position] :=
      List.getElem?_eq_getElem within
    have named : (builder.build generation).isNamed position =
        builder.entries[position].document.id?.isSome := by
      rw [Bool.eq_iff_iff, isNamed_iff, Option.isSome_iff_exists]
      exact exists_congr fun id => mem_postings_build_iff there
    simp [named, SegmentBuilder.isLive_build, there]
  have counted := congrArg (List.countP id) each
  rw [List.countP_map, List.countP_map] at counted
  rw [unnamed, ← List.countP_eq_length_filter]
  exact counted

end Segment

end ShardSync
