import Mathlib.Data.List.Dedup
import ShardSync.Proofs.Engine.Calls
import ShardSync.Proofs.Recovery.History

/-!
# An engine is a map

An engine that was given sealed segments answers for each id as a map from ids to
documents does: operations put documents into it and take them out, and a refresh makes
what they did visible. Calls fail only if the generations run out.
-/

set_option autoImplicit false

namespace ShardSync

open Recovery (lastWith)

/-- What a search reports of an id after an operation on it. -/
def Operation.numbers? (operation : Operation) : Option Numbers :=
  match operation.action with
  | .index _ version _ =>
      some ⟨some version, some operation.seqNo, some operation.primaryTerm⟩
  | .delete _ _ | .noOp _ => none

theorem Operation.numbers?_eq (operation : Operation) :
    operation.live?.map Document.numbers = operation.numbers? := by
  unfold live? document numbers?
  cases operation.action <;> rfl

namespace Engine

/-- What a search is to report of an id: what the last operation on it leaves, or the
live copy in the segments that the engine was given. -/
def expected (segments : List Segment) (operations : List Operation) (id : Bytes) :
    Option Numbers :=
  match lastWith operations id with
  | some operation => operation.numbers?
  | none => ((segments.flatMap Segment.rows).find? (·.isLiveWith id)).bind Row.numbers?

/-- The ids that the last operation on them has put a document under. -/
def indexed (operations : List Operation) : List Bytes :=
  (operations.filterMap (·.key?)).dedup.filter fun id =>
    ((lastWith operations id).bind Operation.numbers?).isSome

/-- Whether an operation concerns the id of a row. -/
def isTouched (operations : List Operation) (row : Row) : Bool :=
  operations.any fun operation => operation.key?.any row.carries

/-- An engine in which searches see what is expected, and nothing else. -/
structure Shows (engine : Engine) (segments : List Segment) (operations : List Operation) :
    Prop where
  reports : ∀ id : String,
    engine.reports id = .ok (expected segments operations (Text.Utf8.encode id))
  numDocs : ∃ ids : List Bytes, ids.Nodup ∧
    (∀ id, id ∈ ids ↔ (expected segments operations id).isSome) ∧
    engine.numDocs = ids.length + (segments.flatMap Segment.unnamed).length
  numDocs_eq : engine.numDocs = (indexed operations).length +
    (segments.flatMap Segment.rows).countP fun row => row.isLive && !isTouched operations row

/-- Searches see one document for each id. -/
theorem Ready.exists_documents {engine : Engine} {entries : List Pending}
    (ready : engine.Ready entries) :
    ∃ documents : Bytes → Option Document,
      ∀ id, liveWith id entries = (documents id).toList := by
  refine ⟨fun id => (liveWith id entries).head?, fun id => ?_⟩
  have short := ready.tidy.single id
  rw [ready.rows, List.filter_map, List.length_map] at short
  have length : (liveWith id entries).length ≤ 1 := by rwa [liveWith, List.length_map]
  cases held : liveWith id entries with
  | nil => simp [held]
  | cons document rest =>
      rw [held, List.length_cons] at length
      simp [held, List.eq_nil_of_length_eq_zero (by omega : rest.length = 0)]

theorem numbers?_ofPending {entry : Pending} (known : (Row.ofPending entry).numbers?.isSome) :
    (Row.ofPending entry).numbers? = some entry.document.numbers := by
  unfold Row.numbers? Row.ofPending Document.numbers at *
  revert known
  cases entry.document.version? <;> cases entry.document.seqNo? <;>
    cases entry.document.primaryTerm? <;> simp

/-- The live row with an id has the numbers of the document that the map holds. -/
theorem find?_cases {entries : List Pending} {documents : Bytes → Option Document}
    (numbered : Pending.AreNumbered entries)
    (held : ∀ id, liveWith id entries = (documents id).toList) (id : Bytes) :
    ((entries.map Row.ofPending).find? (·.isLiveWith id) = none ∧ documents id = none) ∨
      ∃ row document, (entries.map Row.ofPending).find? (·.isLiveWith id) = some row ∧
        documents id = some document ∧ row.numbers? = some document.numbers := by
  have first : (entries.find? fun entry => (Row.ofPending entry).isLiveWith id).map
      (·.document) = documents id := by
    have front := congrArg List.head? (held id)
    rw [liveWith, List.head?_map, List.head?_filter] at front
    exact front.trans (by cases documents id <;> rfl)
  have located : (entries.map Row.ofPending).find? (·.isLiveWith id) =
      (entries.find? fun entry => (Row.ofPending entry).isLiveWith id).map Row.ofPending :=
    List.find?_map ..
  rw [located, ← first]
  cases found : entries.find? fun entry => (Row.ofPending entry).isLiveWith id with
  | none => exact .inl ⟨rfl, rfl⟩
  | some entry =>
      have here := List.find?_some found
      have live := (Pending.isLiveWith_ofPending_iff.mp here).1
      have known := numbered entry (List.mem_of_find?_eq_some found) live
      exact .inr ⟨_, _, rfl, rfl, numbers?_ofPending known⟩

/-- What is expected is what the map holds after the operations. -/
theorem expected_eq {segments : List Segment} {entries : List Pending}
    {documents : Bytes → Option Document}
    (rows : segments.flatMap Segment.rows = entries.map Row.ofPending)
    (numbered : Pending.AreNumbered entries)
    (held : ∀ id, liveWith id entries = (documents id).toList) (operations : List Operation)
    (id : Bytes) :
    expected segments operations id =
      (operations.foldl after documents id).map Document.numbers := by
  rw [Recovery.foldl_after, expected, rows]
  cases lastWith operations id with
  | some operation => exact operation.numbers?_eq.symm
  | none =>
      obtain ⟨absent, free⟩ | ⟨row, document, found, there, same⟩ := find?_cases numbered held id
      · simp [absent, free]
      · simp [found, there, same]

theorem lastWith_isSome_iff {operations : List Operation} {id : Bytes} :
    (lastWith operations id).isSome = true ↔
      ∃ operation ∈ operations, operation.key? = some id := by
  rw [← Option.ne_none_iff_isSome, lastWith, ne_eq, List.getLast?_eq_none_iff,
    List.filter_eq_nil_iff]
  simp

theorem mem_indexed_iff {operations : List Operation} {id : Bytes} :
    id ∈ indexed operations ↔ ((lastWith operations id).bind Operation.numbers?).isSome := by
  simp only [indexed, List.mem_filter, List.mem_dedup, List.mem_filterMap, and_iff_right_iff_imp]
  intro present
  cases last : lastWith operations id with
  | none => simp [last] at present
  | some operation => exact ⟨operation, Recovery.mem_of_lastWith last⟩

theorem isTouched_ofPending (operations : List Operation) (entry : Pending) :
    isTouched operations (Row.ofPending entry) =
      entry.document.id?.any fun id => (lastWith operations id).isSome := by
  cases named : entry.document.id? with
  | none => simp [isTouched, Row.ofPending, named]
  | some id =>
      rw [Option.any_some, Bool.eq_iff_iff, lastWith_isSome_iff]
      simp only [isTouched, List.any_eq_true]
      refine exists_congr fun operation => and_congr_right fun _ => ?_
      cases operation.key? with
      | none => simp
      | some other => simpa [Row.ofPending, named] using eq_comm

theorem countP_untouched (operations : List Operation) (entries : List Pending) :
    (entries.map Row.ofPending).countP (fun row => row.isLive && !isTouched operations row) =
      ((Pending.liveIds entries).filter fun id => (lastWith operations id).isNone).length +
        Pending.unnamed entries := by
  -- A row without an id is touched by no operation, so it counts on the right in any case.
  induction entries with
  | nil => rfl
  | cons entry entries ih =>
      rw [List.map_cons, List.countP_cons, ih, isTouched_ofPending]
      change _ + (if (entry.isLive && _) = true then 1 else 0) = _
      cases live : entry.isLive with
      | false => simp [Pending.liveIds, Pending.unnamed, live]
      | true =>
          cases named : entry.document.id? with
          | none => simp [Pending.liveIds, Pending.unnamed, live, named, Nat.add_assoc]
          | some id =>
              cases last : lastWith operations id with
              | none => simp [Pending.liveIds, Pending.unnamed, live, named, last]; omega
              | some operation => simp [Pending.liveIds, Pending.unnamed, live, named, last]

/-- The live ids are those of documents put by operations, and the untouched ones. -/
theorem perm_liveIds {operations : List Operation} {entries later : List Pending}
    {documents : Bytes → Option Document}
    (held : ∀ id, liveWith id entries = (documents id).toList)
    (heldLater : ∀ id, liveWith id later = (operations.foldl after documents id).toList) :
    (Pending.liveIds later).Perm (indexed operations ++
      (Pending.liveIds entries).filter fun id => (lastWith operations id).isNone) := by
  obtain ⟨apart, listed⟩ := Pending.liveIds_of_held held
  obtain ⟨apartLater, listedLater⟩ := Pending.liveIds_of_held heldLater
  -- The two parts are told apart by whether there is a last operation on the id.
  have separate : (indexed operations ++
      (Pending.liveIds entries).filter fun id => (lastWith operations id).isNone).Nodup := by
    refine List.nodup_append'.mpr ⟨(List.nodup_dedup _).filter _, apart.filter _, ?_⟩
    intro id put untouched
    have present := mem_indexed_iff.mp put
    simp [Option.isNone_iff_eq_none.mp (List.mem_filter.mp untouched).2] at present
  refine (List.perm_ext_iff_of_nodup apartLater separate).mpr fun id => ?_
  rw [listedLater, List.mem_append, mem_indexed_iff, List.mem_filter, listed,
    Recovery.foldl_after]
  cases lastWith operations id with
  | none => simp
  | some operation => simp [← operation.numbers?_eq]

/-- With nothing pending, a search reports the document that the map holds. -/
theorem Ready.reports {engine : Engine} {entries : List Pending}
    {documents : Bytes → Option Document} (ready : engine.Ready entries)
    (settled : engine.pending.entries = [])
    (held : ∀ id, liveWith id entries = (documents id).toList) (id : String) :
    engine.reports id = .ok ((documents (Text.Utf8.encode id)).map Document.numbers) := by
  apply eq_ok_of_toOption
  rw [ready.tidy.reports settled, ready.rows]
  obtain ⟨absent, free⟩ | ⟨row, document, found, there, same⟩ :=
    find?_cases ready.numbered held (Text.Utf8.encode id)
  · simp [absent, free]
  · simp [found, there, same]

theorem Ready.numDocs {engine : Engine} {entries : List Pending} (ready : engine.Ready entries)
    (settled : engine.pending.entries = []) :
    engine.numDocs = (Pending.liveIds entries).length + Pending.unnamed entries := by
  rw [ready.tidy.numDocs settled, ready.rows, List.countP_map]
  exact Pending.countP_isLive entries

theorem Ready.shows {prepared engine : Engine} {segments : List Segment} {entries : List Pending}
    {operations : List Operation} (start : prepared.Ready entries)
    (rows : segments.flatMap Segment.rows = entries.map Row.ofPending)
    (unnamed : (segments.flatMap Segment.unnamed).length = Pending.unnamed entries)
    (ready : engine.Ready (Operation.entriesAfterAll operations entries))
    (settled : engine.pending.entries = []) : engine.Shows segments operations := by
  obtain ⟨documents, held⟩ := start.exists_documents
  have expects := expected_eq rows start.numbered held operations
  have heldAfter (id : Bytes) :
      liveWith id (Operation.entriesAfterAll operations entries) =
        (operations.foldl after documents id).toList :=
    Operation.liveWith_entriesAfterAll held id
  have counted : engine.numDocs =
      (Pending.liveIds (Operation.entriesAfterAll operations entries)).length +
        Pending.unnamed entries := by
    rw [ready.numDocs settled, Operation.unnamed_entriesAfterAll]
  constructor
  · intro id
    rw [expects]
    exact ready.reports settled heldAfter id
  · obtain ⟨apart, listed⟩ := Pending.liveIds_of_held heldAfter
    refine ⟨_, apart, fun id => ?_, ?_⟩
    · rw [listed, expects, Option.isSome_map]
    · rw [counted, unnamed]
  · rw [counted, rows, countP_untouched, (perm_liveIds held heldAfter).length_eq,
      List.length_append, Nat.add_assoc]

/-- Calls on an engine that was given sealed segments. -/
theorem refines {engine prepared : Engine} {segments : List Segment}
    (origin : ∀ segment ∈ segments, segment.Sealed)
    (accepted : engine.prepare segments = .ok prepared)
    (distinct : (segments.map (·.generation)).Nodup)
    (single : ∀ id, (segments.flatMap (·.livePositions id)).length ≤ 1)
    (numbered : ∀ segment ∈ segments, ∀ position, segment.isLive position = true →
      (segment.row position).numbers?.isSome)
    {calls : List Call}
    (natural : ∀ operation ∈ calls.filterMap Call.operation?, 0 ≤ operation.seqNo)
    (room : ∀ error, prepared.run calls = .error error → ¬ error.IsExhaustion) :
    ∃ later, prepared.run calls = .ok later ∧ later.IsConsistent ∧
      (calls.getLast? = some .refresh → later.pending.entries = []) ∧
      (later.pending.entries = [] → later.Shows segments (calls.filterMap Call.operation?)) := by
  obtain ⟨entries, rows, unnamed⟩ := exists_entries origin
  have ready := ready_prepare origin accepted distinct single numbered rows
  cases outcome : prepared.run calls with
  | error error => exact absurd (ready.run_fails natural outcome) (room error outcome)
  | ok later =>
      have readyLater := ready.run_ok outcome
      exact ⟨later, rfl, readyLater.isConsistent, fun last => ready.settled last outcome,
        ready.shows rows unnamed readyLater⟩

/-- A copy in a segment is deleted, and one that is collected is put twice. -/
theorem refines_sealed :
    let stale := SegmentBuilder.liveDocument [0x61] 1 0 1
    let unnamed : Document := { version? := some 1, seqNo? := some 1, primaryTerm? := some 1 }
    let fresh := SegmentBuilder.liveDocument [0x61] 2 2 1
    let segments : List Segment := [
      (((({} : SegmentBuilder).add stale).add unnamed).build 1).withSoftDeleted 0 3,
      (({} : SegmentBuilder).add fresh).build 2]
    let calls : List Call := [
      .apply ⟨7, 1, .index "b" 1 [0x7B]⟩, .apply ⟨5, 1, .delete "a" 3⟩, .refresh, .get "a",
      .apply ⟨6, 1, .index "b" 2 [0x7D]⟩, .apply ⟨9, 1, .index "b" 3 []⟩, .refresh]
    ∃ prepared later, Engine.prepare {} segments = .ok prepared ∧
      prepared.run calls = .ok later ∧ later.IsConsistent ∧
      later.Shows segments (calls.filterMap Call.operation?) := by
  intro stale unnamed fresh segments calls
  have origin : ∀ segment ∈ segments, segment.Sealed := by
    refine List.forall_mem_cons.mpr ⟨.withSoftDeleted (.build _ _) _ _, ?_⟩
    exact List.forall_mem_singleton.mpr (.build _ _)
  have done : (Engine.prepare {} segments >>= (·.run calls)).isOk := by decide +kernel
  have single (id : Bytes) : (segments.flatMap (·.livePositions id)).length ≤ 1 :=
    Nat.le_trans (Segment.length_livePositions_le segments id) (by decide +kernel)
  have numbered : ∀ segment ∈ segments, ∀ position < segment.maxDoc,
      segment.isLive position = true → (segment.row position).numbers?.isSome := by
    decide +kernel
  have natural : ∀ operation ∈ calls.filterMap Call.operation?, 0 ≤ operation.seqNo := by
    decide +kernel
  cases accepted : Engine.prepare {} segments with
  | error error =>
      rw [accepted] at done
      cases done
  | ok prepared =>
      obtain ⟨later, finished, consistent, settled, shows⟩ :=
        refines origin accepted (by decide +kernel) single
          (fun segment member position live =>
            have inside := Segment.lt_of_isLive (origin segment member).isMasked live
            numbered segment member position inside live)
          natural
          (fun error failed => by
            rw [accepted, show Except.ok prepared >>= (·.run calls) = prepared.run calls from rfl,
              failed] at done
            cases done)
      exact ⟨prepared, later, rfl, finished, consistent, shows (settled rfl)⟩

end Engine

end ShardSync
