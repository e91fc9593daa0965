import ShardSync.Proofs.Engine.Entries
import ShardSync.Proofs.Outcome
import ShardSync.Proofs.Segment.Encoding

/-!
# Calls of an engine

Operations, refreshes and searches, one after the other. As long as an engine that was
given sealed segments has generations left, no call fails, and its rows are those of the
entries that the operations leave.
-/

set_option autoImplicit false

namespace ShardSync

/-- Whether a call has failed because there are no generations left. -/
def EngineError.IsExhaustion (error : EngineError) : Prop :=
  ∃ generation, error = .generationsExhausted generation

namespace Engine

inductive Call where
  | apply (operation : Operation)
  | refresh
  | get (id : String)

/-- The engine after a call, unless that fails. -/
def call (engine : Engine) : Call → Except EngineError Engine
  | .apply operation => (engine.apply operation).1.map fun _ => (engine.apply operation).2
  | .refresh => engine.refresh
  | .get id => (engine.get id).1.map fun _ => (engine.get id).2

/-- The engine after calls that are made one after the other, up to one that fails. -/
def run (engine : Engine) : List Call → Except EngineError Engine
  | [] => .ok engine
  | call :: calls => do (← engine.call call).run calls

def Call.operation? : Call → Option Operation
  | .apply operation => some operation
  | .refresh | .get _ => none

/-- Segments that can be searched, and told apart by their generations, and that hold no
id at two live positions, not even together with what is pending. -/
structure IsConsistent (engine : Engine) : Prop where
  usable : ∀ segment ∈ engine.segments, ∃ lookup, Lookup.ofSegment segment = .ok lookup
  distinct : (engine.segments.map (·.generation)).Nodup
  single : Row.AreSingle engine.rows

/-- An engine that can go on, and the entries that its rows come from. -/
structure Ready (engine : Engine) (entries : List Pending) : Prop where
  tidy : engine.Tidy
  isPrepared : engine.isPrepared = true
  rows : engine.rows = entries.map Row.ofPending
  numbered : Pending.AreNumbered entries

theorem exists_versionHit {segment : Segment} {position : Nat}
    (known : (segment.row position).numbers?.isSome) (withSeqNo : Bool) :
    ∃ hit, Lookup.versionHit segment position withSeqNo = .ok hit := by
  unfold Row.numbers? Segment.row at known
  unfold Lookup.versionHit Lookup.value
  dsimp only at known ⊢
  cases version : segment.versions?.bind (·.get? position) <;>
    cases seqNo : segment.seqNos?.bind (·.get? position) <;>
    cases primaryTerm : segment.primaryTerms?.bind (·.get? position) <;>
    simp [version, seqNo, primaryTerm] at known
  cases withSeqNo <;> exact ⟨_, rfl⟩

theorem isPrepared_apply {engine later : Engine} {operation : Operation}
    (applied : engine.apply operation = (.ok (), later)) :
    later.isPrepared = engine.isPrepared := by
  obtain ⟨-, -, between, performed, rfl⟩ := apply_ok applied
  obtain ⟨_, _, _, _, _, frame⟩ := perform_frame engine operation
  rw [performed] at frame
  have kept : between.isPrepared = engine.isPrepared := by rw [show between = _ from frame]
  exact kept

theorem run_cons_ok_iff {engine later : Engine} {call : Call} {calls : List Call} :
    engine.run (call :: calls) = .ok later ↔
      ∃ between, engine.call call = .ok between ∧ between.run calls = .ok later := by
  rw [run, bind_eq_ok_iff]

theorem run_append_ok {engine later : Engine} {first second : List Call}
    (done : engine.run (first ++ second) = .ok later) :
    ∃ between, engine.run first = .ok between ∧ between.run second = .ok later := by
  induction first generalizing engine with
  | nil => exact ⟨engine, rfl, done⟩
  | cons call first ih =>
      obtain ⟨next, called, rest⟩ := run_cons_ok_iff.mp done
      obtain ⟨between, ran, finished⟩ := ih rest
      exact ⟨between, run_cons_ok_iff.mpr ⟨next, called, ran⟩, finished⟩

namespace Ready

variable {engine : Engine} {entries : List Pending}

theorem exists_hit (ready : engine.Ready entries) {segment : Segment}
    (member : segment ∈ engine.segments) {position : Nat} {id : Bytes}
    (found : Lookup.search? segment id = some position) (withSeqNo : Bool) :
    ∃ hit, Lookup.versionHit segment position withSeqNo = .ok hit := by
  obtain ⟨inside, live⟩ := Segment.search?_eq_some (ready.tidy.masked segment member) found
  have listed := mem_rows member inside
  rw [ready.rows] at listed
  obtain ⟨entry, known, same⟩ := List.mem_map.mp listed
  refine exists_versionHit ?_ withSeqNo
  rw [← same] at live ⊢
  exact ready.numbered entry known (Pending.isLiveWith_ofPending_iff.mp live).1

/-- A search in the segments does not fail, and leaves a cache that can be trusted. -/
theorem version (ready : engine.Ready entries) (id : Bytes) (withSeqNo : Bool) :
    ∃ hit? after, engine.resolver.version engine.segments id withSeqNo = (.ok hit?, after) ∧
      Ready { engine with resolver := after } entries := by
  have tidy := ready.tidy
  obtain ⟨after, faithful, outcome⟩ := tidy.identified.search tidy.faithful id
    fun segment position => Lookup.versionHit segment position withSeqNo
  have kept : Ready { engine with resolver := after } entries :=
    ⟨⟨tidy.usable, tidy.masked, tidy.complete, tidy.distinct, tidy.older, faithful, tidy.single⟩,
      ready.isPrepared, ready.rows, ready.numbered⟩
  rcases outcome with ⟨-, same⟩ | ⟨_, segment, _, position, newest, same⟩
  · exact ⟨none, after, same, kept⟩
  -- A position that is found is live, so its numbers are there to be reported.
  · obtain ⟨hit, read⟩ := ready.exists_hit newest.mem newest.found withSeqNo
    rw [read] at same
    exact ⟨some hit, after, same, kept⟩

theorem removeLive_fails (ready : engine.Ready entries) {id : Bytes} {error : EngineError}
    {later : Engine} (failed : engine.removeLive id = (.error error, later)) :
    error.IsExhaustion := by
  obtain ⟨hit?, after, searched, -⟩ := ready.version id false
  unfold Engine.removeLive at failed
  cases pending : engine.pending.findLive? id with
  | some position => simp [pending] at failed
  | none =>
      cases hit? with
      | none => simp [pending, searched] at failed
      | some hit =>
          rcases allocate_cases { engine with resolver := after } with
            ⟨_, refused⟩ | ⟨next, _, allocated⟩
          · simp [pending, searched, refused] at failed
            exact ⟨_, failed.1.symm⟩
          · simp [pending, searched, allocated] at failed

theorem perform_fails (ready : engine.Ready entries) {operation : Operation}
    {error : EngineError} {later : Engine}
    (failed : engine.perform operation = (.error error, later)) : error.IsExhaustion := by
  cases key : operation.key? with
  | none => simp [perform_of_no_key key] at failed
  | some id =>
      rw [perform_of_key key] at failed
      split at failed
      · next removed =>
          cases failed
          exact ready.removeLive_fails removed
      · cases failed

theorem apply_fails (ready : engine.Ready entries) {operation : Operation}
    (natural : 0 ≤ operation.seqNo) {error : EngineError} {later : Engine}
    (failed : engine.apply operation = (.error error, later)) : error.IsExhaustion := by
  unfold Engine.apply at failed
  rw [ready.isPrepared, Bool.not_true, if_neg Bool.false_ne_true,
    if_neg (Int64.not_lt.mpr natural)] at failed
  split at failed
  · next performed =>
      cases failed
      exact ready.perform_fails performed
  · cases failed

theorem refresh_fails {error : EngineError} (failed : engine.refresh = .error error) :
    error.IsExhaustion := by
  unfold Engine.refresh at failed
  split at failed
  · cases failed
  · rcases allocate_cases engine with ⟨_, refused⟩ | ⟨next, _, allocated⟩
    · rw [refused] at failed
      cases failed
      exact ⟨_, rfl⟩
    · rw [allocated] at failed
      cases failed

/-- A call fails only if the generations run out. -/
theorem call_fails (ready : engine.Ready entries) {call : Call}
    (natural : ∀ operation ∈ call.operation?, 0 ≤ operation.seqNo) {error : EngineError}
    (failed : engine.call call = .error error) : error.IsExhaustion := by
  cases call with
  | apply operation =>
      cases outcome : engine.apply operation with
      | mk result later =>
          simp only [Engine.call, outcome] at failed
          cases result with
          | ok => cases failed
          | error =>
              cases failed
              exact ready.apply_fails (natural operation rfl) outcome
  | refresh => exact refresh_fails failed
  | get id =>
      obtain ⟨hit?, after, searched, -⟩ := ready.version (Text.Utf8.encode id) true
      simp [Engine.call, Engine.get, searched, Except.mapError, Except.map] at failed

theorem call_ok (ready : engine.Ready entries) {call : Call} {later : Engine}
    (done : engine.call call = .ok later) :
    later.Ready (call.operation?.elim entries (·.entriesAfter entries)) := by
  cases call with
  | apply operation =>
      cases outcome : engine.apply operation with
      | mk result between =>
          simp only [Engine.call, outcome] at done
          cases result with
          | error => cases done
          | ok =>
              cases done
              obtain ⟨tidy, -, holdings⟩ := ready.tidy.apply outcome
              refine ⟨tidy, (isPrepared_apply outcome).trans ready.isPrepared, ?_,
                Operation.areNumbered_entriesAfter ready.numbered operation⟩
              rw [show between.rows = _ from congrArg Holdings.rows holdings]
              exact (congrArg operation.rowsAfter ready.rows).trans
                (operation.rowsAfter_map entries)
  | refresh =>
      obtain ⟨tidy, -, holdings, -⟩ := ready.tidy.refresh done
      obtain ⟨_, _, _, frame⟩ := refresh_frame done
      refine ⟨tidy, ?_, (congrArg Holdings.rows holdings).trans ready.rows, ready.numbered⟩
      rw [frame]
      exact ready.isPrepared
  | get id =>
      obtain ⟨hit?, after, searched, kept⟩ := ready.version (Text.Utf8.encode id) true
      simp [Engine.call, Engine.get, searched, Except.mapError, Except.map] at done
      rw [← done]
      exact kept

theorem run_fails (ready : engine.Ready entries) {calls : List Call}
    (natural : ∀ operation ∈ calls.filterMap Call.operation?, 0 ≤ operation.seqNo)
    {error : EngineError} (failed : engine.run calls = .error error) : error.IsExhaustion := by
  induction calls generalizing engine entries with
  | nil => cases failed
  | cons call calls ih =>
      have first : ∀ operation ∈ call.operation?, 0 ≤ operation.seqNo := fun operation same =>
        natural operation (List.mem_filterMap.mpr ⟨call, List.mem_cons_self, same⟩)
      have later : ∀ operation ∈ calls.filterMap Call.operation?, 0 ≤ operation.seqNo :=
        fun operation member => natural operation
          (((List.sublist_cons_self call calls).filterMap _).subset member)
      rw [run] at failed
      cases outcome : engine.call call with
      | error =>
          rw [outcome] at failed
          cases failed
          exact ready.call_fails first outcome
      | ok between =>
          rw [outcome] at failed
          exact ih (ready.call_ok outcome) later failed

theorem run_ok (ready : engine.Ready entries) {calls : List Call} {later : Engine}
    (done : engine.run calls = .ok later) :
    later.Ready (Operation.entriesAfterAll (calls.filterMap Call.operation?) entries) := by
  induction calls generalizing engine entries with
  | nil =>
      cases done
      exact ready
  | cons call calls ih =>
      obtain ⟨between, called, rest⟩ := run_cons_ok_iff.mp done
      have final := ih (ready.call_ok called) rest
      cases operation : call.operation? with
      | none =>
          rw [operation] at final
          rwa [List.filterMap_cons_none operation]
      | some operation =>
          rw [operation] at final
          rwa [List.filterMap_cons_some operation]

/-- A refresh leaves nothing pending. -/
theorem settled (ready : engine.Ready entries) {calls : List Call}
    (last : calls.getLast? = some .refresh) {later : Engine}
    (done : engine.run calls = .ok later) : later.pending.entries = [] := by
  obtain ⟨before, rfl⟩ := List.getLast?_eq_some_iff.mp last
  obtain ⟨between, ran, rest⟩ := run_append_ok done
  obtain ⟨final, refreshed, same⟩ := run_cons_ok_iff.mp rest
  cases same
  exact ((ready.run_ok ran).tidy.refresh refreshed).2.2.2

theorem isConsistent (ready : engine.Ready entries) : engine.IsConsistent :=
  ⟨ready.tidy.usable, ready.tidy.distinct, ready.tidy.single⟩

end Ready

/-- The rows of sealed segments come from the entries of their builders. -/
theorem exists_entries {segments : List Segment}
    (origin : ∀ segment ∈ segments, segment.Sealed) :
    ∃ entries : List Pending, segments.flatMap Segment.rows = entries.map Row.ofPending ∧
      (segments.flatMap Segment.unnamed).length = Pending.unnamed entries := by
  induction segments with
  | nil => exact ⟨[], rfl, rfl⟩
  | cons segment segments ih =>
      obtain ⟨first, later⟩ := List.forall_mem_cons.mp origin
      obtain ⟨builder, same⟩ := first.exists_build
      obtain ⟨entries, rows, unnamed⟩ := ih later
      refine ⟨builder.entries ++ entries, ?_, ?_⟩
      · rw [List.flatMap_cons, List.map_append, rows, same, Segment.rows_build]
      · rw [List.flatMap_cons, List.length_append, unnamed, same, Segment.length_unnamed_build,
          Pending.unnamed, Pending.unnamed, Pending.unnamed, List.countP_append]

theorem ready_prepare {engine prepared : Engine} {segments : List Segment} {entries : List Pending}
    (origin : ∀ segment ∈ segments, segment.Sealed)
    (accepted : engine.prepare segments = .ok prepared)
    (distinct : (segments.map (·.generation)).Nodup)
    (single : ∀ id, (segments.flatMap (·.livePositions id)).length ≤ 1)
    (numbered : ∀ segment ∈ segments, ∀ position, segment.isLive position = true →
      (segment.row position).numbers?.isSome)
    (rows : segments.flatMap Segment.rows = entries.map Row.ofPending) :
    prepared.Ready entries := by
  have masked : ∀ segment ∈ segments, segment.IsMasked :=
    fun segment member => (origin segment member).isMasked
  obtain ⟨tidy, -, held⟩ :=
    tidy_prepare accepted masked distinct (Segment.areSingle_rows single)
  obtain ⟨_, _, -, same⟩ := prepare_ok accepted
  refine ⟨tidy, by rw [same], held.trans rows, fun entry member live => ?_⟩
  have listed : Row.ofPending entry ∈ segments.flatMap Segment.rows := by
    rw [rows]
    exact List.mem_map_of_mem member
  obtain ⟨segment, known, inside⟩ := List.mem_flatMap.mp listed
  obtain ⟨position, -, same⟩ := List.mem_map.mp inside
  have here : (segment.row position).isLive = true := by rwa [same]
  rw [← same]
  exact numbered segment known position here

end Engine

end ShardSync
