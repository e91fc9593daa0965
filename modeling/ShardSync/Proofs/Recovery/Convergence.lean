import ShardSync.Proofs.Recovery.ExactlyOnce
import ShardSync.Proofs.Recovery.Layout

/-!
# Replaying a history over a part of it

A target whose segments hold some operations of a history replays the whole
history. However the history is divided into batches, the engine ends with what
is settled by the history and the held operations alone.
-/

set_option autoImplicit false

namespace ShardSync.Recovery

open Engine (Advances after)

/-- The operations of a history are numbered from zero on. -/
def Numbered (history : List Operation) : Prop :=
  ∀ (index : Nat) (operation : Operation), history[index]? = some operation →
    operation.seqNo.toInt = index

theorem Numbered.increasing {history : List Operation} (numbered : Numbered history) :
    history.Pairwise fun first second => first.seqNo < second.seqNo := by
  refine List.pairwise_iff_getElem.mpr fun first second inFirst inSecond less => ?_
  rw [Int64.lt_iff_toInt_lt, numbered first _ (List.getElem?_eq_getElem inFirst),
    numbered second _ (List.getElem?_eq_getElem inSecond)]
  exact Int.ofNat_lt.mpr less

theorem Numbered.nonneg {history : List Operation} (numbered : Numbered history)
    {operation : Operation} (member : operation ∈ history) : 0 ≤ operation.seqNo := by
  obtain ⟨index, there⟩ := List.mem_iff_getElem?.mp member
  rw [Int64.le_iff_toInt_le, numbered index operation there]
  exact Int.natCast_nonneg _

namespace Receiver

/-- Where a replay over held operations stands: which operations have been
decided about, and what the engine is made of. -/
structure Resumed (history held done : List Operation) (limit : Nat) (receiver : Receiver)
    (parts : List Part) : Prop where
  phase : receiver.phase = .ops
  total : receiver.target.totalOps = history.length
  cursor : receiver.target.nextSeqNo = .ofNat done.length
  recovered : receiver.target.opsRecovered = done.length
  sound : receiver.copy.engine.tracker.Sound
  processed : ∀ number, (done.length : Int) ≤ number →
    (receiver.copy.engine.hasProcessed number = true ↔
      ∃ operation ∈ held, operation.seqNo.toInt = number)
  holds : receiver.copy.engine.Holds parts (settled history held done)
  bound : receiver.copy.engine.nextGeneration.toNat ≤ limit

/-- The search of a target finds out whether a held document is as young as an
operation. -/
theorem search_newer {snapshot : Engine} {kept : List Part}
    {documents : Bytes → Option Document} (shelf : snapshot.Holds kept documents)
    (quiet : snapshot.pending.entries = []) {receiver : Receiver}
    (coherent : receiver.target.resolver.Coherent kept snapshot.nextGeneration)
    (operation : Operation) :
    ∃ hit? resolver, receiver.search snapshot.segments operation = (.ok hit?, resolver) ∧
      hit?.any (operation.seqNo ≤ ·.seqNo) = isNewer documents operation ∧
        resolver.Coherent kept snapshot.nextGeneration := by
  unfold search
  cases named : operation.id? with
  | none =>
      refine ⟨none, _, rfl, ?_, coherent⟩
      rw [isNewer, Operation.key?, named]
      rfl
  | some id =>
      have carries : operation.key? = some (Text.Utf8.encode id) := by
        rw [Operation.key?, named]
        rfl
      obtain ⟨hit?, resolver, found, seqNo, coherentLater⟩ :=
        shelf.seqNo quiet coherent (Text.Utf8.encode id)
      refine ⟨hit?, resolver, found, ?_, coherentLater⟩
      rw [isNewer_of_key carries, ← seqNo, Option.any_map]

theorem Resumed.advance {history held done : List Operation} {limit : Nat}
    {receiver between : Receiver} {parts others : List Part} {operation : Operation}
    (resumed : receiver.Resumed history held done limit parts)
    (target : between.target = { receiver.target with resolver := between.target.resolver })
    (sound : between.copy.engine.tracker.Sound)
    (processed : ∀ number, (done.length : Int) + 1 ≤ number →
      (between.copy.engine.hasProcessed number = true ↔
        ∃ operation ∈ held, operation.seqNo.toInt = number))
    (holds : between.copy.engine.Holds others (settled history held (done ++ [operation])))
    (bound : between.copy.engine.nextGeneration.toNat ≤ limit + 1) :
    between.advance.Resumed history held (done ++ [operation]) (limit + 1) others := by
  have cursor := resumed.cursor
  have recovered := resumed.recovered
  have length : (done ++ [operation]).length = done.length + 1 := List.length_append
  refine ⟨?_, ?_, ?_, ?_, sound, ?_, holds, bound⟩
  · rw [Receiver.phase, Receiver.advance, target]
    exact resumed.phase
  · rw [Receiver.advance, target]
    exact resumed.total
  · rw [Receiver.advance, target, length, Int64.ofNat_add, ← cursor]
    rfl
  · rw [Receiver.advance, target, length]
    dsimp only
    omega
  · intro number beyond
    rw [length] at beyond
    exact processed number (by omega)

theorem Resumed.skip {history held done : List Operation} {limit : Nat} {receiver : Receiver}
    {parts : List Part} {operation : Operation}
    (resumed : receiver.Resumed history held done limit parts)
    (skipped : skips history held operation = true) (resolver : Resolver) :
    (Receiver.advance { receiver with target.resolver := resolver }).Resumed history held
      (done ++ [operation]) (limit + 1) parts := by
  refine resumed.advance rfl resumed.sound (fun number beyond => ?_) ?_
    (Nat.le_succ_of_le resumed.bound)
  · exact resumed.processed number (by omega)
  · rw [settled_concat, if_pos skipped]
    exact resumed.holds

theorem exists_held_iff {history held : List Operation} (numbered : Numbered history)
    (subset : held ⊆ history) {index : Nat} {operation : Operation}
    (there : history[index]? = some operation) :
    (∃ other ∈ held, other.seqNo.toInt = index) ↔ operation ∈ held := by
  constructor
  · intro given
    obtain ⟨other, member, same⟩ := given
    obtain ⟨position, found⟩ := List.mem_iff_getElem?.mp (subset member)
    rw [numbered position other found, Int.ofNat_inj] at same
    rw [same, there] at found
    cases found
    exact member
  · exact fun member => ⟨operation, member, numbered index operation there⟩

/-- The engine, the cache of the target and the snapshot of a batch, when the
operations `done` have been decided about. -/
structure Midway (history held done : List Operation) (limit : Nat) (snapshot : Engine)
    (kept : List Part) (receiver : Receiver) (parts : List Part) : Prop
    extends receiver.Resumed history held done limit parts where
  coherent : receiver.target.resolver.Coherent kept snapshot.nextGeneration
  advances : ∃ steps, Advances snapshot.nextGeneration receiver.copy.engine.nextGeneration kept
    parts steps

/-- The next operation of the history is decided about as the held operations
say, unless the generations run out. -/
theorem Midway.step {history held before done : List Operation} {limit : Nat}
    {snapshot : Engine} {kept parts : List Part} {receiver : Receiver}
    (numbered : Numbered history) (subset : held ⊆ history)
    (shelf : snapshot.Holds kept (settled history held before))
    (quiet : snapshot.pending.entries = [])
    (older : ∀ earlier ∈ before, earlier.seqNo.toInt < done.length)
    (midway : Midway history held done limit snapshot kept receiver parts)
    {operation : Operation} (next : history[done.length]? = some operation)
    (tally : Receiving.Tally) :
    (UInt64.size ≤ limit + 1 ∧ ∃ error later,
      (Receiving.replayOne snapshot.segments tally operation).start receiver =
        (.error error, later)) ∨
    ∃ counted later others,
      (Receiving.replayOne snapshot.segments tally operation).start receiver =
        (.ok counted, later) ∧
      Midway history held (done ++ [operation]) (limit + 1) snapshot kept later others := by
  have seqNo := numbered _ operation next
  have inside : done.length < history.length := (List.getElem?_eq_some_iff.mp next).1
  have resumed := midway.toResumed
  have cursor : operation.seqNo = receiver.target.nextSeqNo := by
    rw [resumed.cursor, ← Int64.ofInt_eq_ofNat, ← seqNo, Int64.ofInt_toInt]
  have room : receiver.target.opsRecovered < receiver.target.totalOps := by
    rw [resumed.recovered, resumed.total]
    exact inside
  have known := resumed.processed done.length (Int.le_refl _)
  rw [exists_held_iff numbered subset next, ← seqNo] at known
  rw [Receiving.start_replayOne_next cursor room, Receiving.start_isHeld]
  cases seen : receiver.copy.engine.hasProcessed operation.seqNo.toInt with
  | true =>
      have skipped : skips history held operation = true := by
        rw [skips, decide_eq_true (known.mp seen), Bool.true_or]
      rw [if_pos rfl]
      exact .inr ⟨_, _, parts, rfl, resumed.skip skipped receiver.target.resolver,
        midway.coherent, midway.advances⟩
  | false =>
      have fresh : operation ∉ held := fun member => by
        rw [known.mpr member] at seen
        cases seen
      obtain ⟨hit?, resolver, found, newer, coherent⟩ :=
        search_newer shelf quiet midway.coherent operation
      rw [isNewer_settled fun earlier member => by
        rw [Int64.lt_iff_toInt_lt, seqNo]
        exact older earlier member] at newer
      rw [if_neg Bool.false_ne_true, found]
      simp only [Except.mapError, Except.map]
      rw [newer]
      cases superseded : isNewer (afterAll (heldOf history held)) operation with
      | true =>
          have skipped : skips history held operation = true := by
            rw [skips, superseded, Bool.or_true]
          exact .inr ⟨_, _, parts, rfl, resumed.skip skipped resolver, coherent,
            midway.advances⟩
      | false =>
          have admissible := numbered.nonneg (List.mem_of_getElem? next)
          dsimp only
          rcases resumed.holds.apply admissible with
            ⟨full, error, later, failed⟩ | ⟨later, others, applied, holds, advances⟩
          · rw [failed]
            exact .inl ⟨Nat.le_trans full (Nat.add_le_add_right resumed.bound 1), _, _, rfl⟩
          · rw [applied]
            obtain ⟨sound, processed⟩ := Engine.apply_processed resumed.sound applied
            obtain ⟨steps, passed⟩ := midway.advances
            have unskipped : skips history held operation = false := by
              rw [skips, decide_eq_false fresh, superseded, Bool.or_false]
            refine .inr ⟨_, _, others, rfl, resumed.advance rfl sound (fun number beyond => ?_) ?_
              (Nat.le_trans advances.most (Nat.add_le_add_right resumed.bound 1)), coherent,
              _, passed.trans advances⟩
            · rw [processed, ← resumed.processed number (by omega), or_iff_left]
              intro given
              obtain ⟨same, _⟩ := given
              omega
            · rw [settled_concat, unskipped]
              exact holds

theorem getElem?_next {history done operations : List Operation} {operation : Operation}
    (remaining : done ++ operation :: operations <+: history) :
    history[done.length]? = some operation := by
  obtain ⟨rest, split⟩ := remaining
  rw [← split, List.append_assoc, List.getElem?_append_right (Nat.le_refl _), Nat.sub_self]
  rfl

theorem Midway.run {history held before done : List Operation} {limit : Nat}
    {snapshot : Engine} {kept parts : List Part} {receiver : Receiver}
    (numbered : Numbered history) (subset : held ⊆ history)
    (shelf : snapshot.Holds kept (settled history held before))
    (quiet : snapshot.pending.entries = [])
    (older : ∀ earlier ∈ before, earlier.seqNo.toInt < done.length)
    (midway : Midway history held done limit snapshot kept receiver parts)
    {operations : List Operation} (remaining : done ++ operations <+: history)
    (tally : Receiving.Tally) :
    (UInt64.size ≤ limit + operations.length ∧ ∃ error later,
      (operations.foldlM (Receiving.replayOne snapshot.segments) tally).start receiver =
        (.error error, later)) ∨
    ∃ counted later others,
      (operations.foldlM (Receiving.replayOne snapshot.segments) tally).start receiver =
        (.ok counted, later) ∧
      Midway history held (done ++ operations) (limit + operations.length) snapshot kept later
        others := by
  -- searches see the segments from the beginning of the batch all along
  induction operations generalizing done limit receiver parts tally with
  | nil =>
      refine .inr ⟨tally, receiver, parts, rfl, ?_⟩
      rw [List.append_nil]
      exact midway
  | cons operation operations ih =>
      rw [List.foldlM_cons, List.length_cons]
      rcases midway.step numbered subset shelf quiet older (getElem?_next remaining) tally with
        ⟨full, error, later, failed⟩ | ⟨counted, between, others, decided, further⟩
      · refine .inl ⟨Nat.le_trans full (by omega), error, later, ?_⟩
        rw [Receiving.start_bind, failed]
      · rw [Receiving.start_bind_of_ok decided]
        have split : done ++ [operation] ++ operations = done ++ operation :: operations := by simp
        have outcome := ih (fun earlier member => by
          have less := older earlier member
          rw [List.length_append]
          exact Int.lt_of_lt_of_le less (by omega)) further (by rw [split]; exact remaining) counted
        have count : limit + 1 + operations.length = limit + (operations.length + 1) := by omega
        rw [split, count] at outcome
        exact outcome

/-- Between two batches nothing is pending, and the cache of the target fits the
segments. -/
structure Rested (history held done : List Operation) (limit : Nat) (receiver : Receiver)
    (parts : List Part) : Prop extends receiver.Resumed history held done limit parts where
  quiet : receiver.copy.engine.pending.entries = []
  coherent : receiver.target.resolver.Coherent parts receiver.copy.engine.nextGeneration

theorem Midway.settle {history held done : List Operation} {limit : Nat} {snapshot engine : Engine}
    {kept parts others : List Part} {receiver : Receiver}
    (midway : Midway history held done limit snapshot kept receiver parts)
    (refreshed : receiver.copy.engine.refresh = .ok engine)
    (holds : engine.Holds others (settled history held done)) (quiet : engine.pending.entries = [])
    (advances : Advances receiver.copy.engine.nextGeneration engine.nextGeneration parts others 1)
    (decisions : List Decision) :
    (receiver.settle decisions engine).Rested history held done (limit + 1) others := by
  have resumed := midway.toResumed
  have tracker := Engine.tracker_refresh refreshed
  obtain ⟨steps, passed⟩ := midway.advances
  have onward := passed.trans advances
  refine ⟨⟨resumed.phase, resumed.total, resumed.cursor, resumed.recovered, ?_, fun number beyond => ?_,
    holds, Nat.le_trans advances.most (Nat.add_le_add_right resumed.bound 1)⟩, quiet,
    midway.coherent.grow onward.fresh onward.least⟩
  · change engine.tracker.Sound
    rw [tracker]
    exact resumed.sound
  · change engine.tracker.hasProcessed number = true ↔ _
    rw [tracker]
    exact resumed.processed number beyond

/-- A batch that continues the history is acknowledged, unless the generations
run out. -/
theorem Rested.handle {history held done : List Operation} {limit : Nat} {receiver : Receiver}
    {parts : List Part} (numbered : Numbered history) (subset : held ⊆ history)
    (rested : receiver.Rested history held done limit parts) {batch : Batch}
    (total : batch.totalOps.toNat = history.length)
    (remaining : done ++ batch.operations <+: history) :
    (UInt64.size ≤ limit + batch.operations.length + 1 ∧
      ∀ checkpoint, (receiver.handle batch.request).1 ≠ .opsAck checkpoint) ∨
    ∃ checkpoint later others, receiver.handle batch.request = (.opsAck checkpoint, later) ∧
      later.Rested history held (done ++ batch.operations) (limit + batch.operations.length + 1)
        others := by
  have older : ∀ earlier ∈ done, earlier.seqNo.toInt < done.length := by
    intro earlier member
    obtain ⟨index, there⟩ := List.mem_iff_getElem?.mp member
    have inside := (List.getElem?_eq_some_iff.mp there).1
    have found : history[index]? = some earlier := by
      obtain ⟨rest, split⟩ := remaining
      rw [← split, List.append_assoc, List.getElem?_append_left inside]
      exact there
    rw [numbered index earlier found]
    exact Int.ofNat_lt.mpr inside
  have midway : Midway history held done limit receiver.copy.engine parts receiver parts :=
    ⟨rested.toResumed, rested.coherent, 0, Advances.refl _ parts 0⟩
  -- an acknowledged batch has been decided about and refreshed
  have acknowledged {checkpoint : Int64}
      (acked : (receiver.handle batch.request).1 = .opsAck checkpoint) :
      ∃ counted replayed engine,
        (batch.operations.foldlM (Receiving.replayOne receiver.copy.engine.segments) {}).start
          receiver = (.ok counted, replayed) ∧ replayed.copy.engine.refresh = .ok engine := by
    have performed := perform_of_handle (Prod.ext acked rfl) fun error same => by cases same
    obtain ⟨_, _, decisions, replayed, engine, replaying, refreshed, _⟩ :=
      Receiving.replay_eq_ok_iff.mp performed
    exact ⟨_, replayed, engine,
      Receiving.foldlM_replayOne_eq_ok_iff.mpr ⟨decisions, replaying, rfl⟩, refreshed⟩
  rcases midway.run numbered subset rested.holds rested.quiet older remaining {} with
    ⟨full, error, later, failed⟩ | ⟨counted, replayed, others, decided, further⟩
  · refine .inl ⟨Nat.le_succ_of_le full, fun checkpoint acked => ?_⟩
    obtain ⟨_, _, _, ran, _⟩ := acknowledged acked
    rw [failed] at ran
    cases ran
  · rcases further.holds.refresh with
      ⟨full, error, failed⟩ | ⟨engine, lasts, refreshed, holds, quiet, advances⟩
    · refine .inl ⟨Nat.le_trans full (Nat.add_le_add_right further.bound 1),
        fun checkpoint acked => ?_⟩
      obtain ⟨_, _, _, ran, refreshed⟩ := acknowledged acked
      rw [decided] at ran
      cases ran
      rw [failed] at refreshed
      cases refreshed
    · obtain ⟨decisions, replaying, _⟩ := Receiving.foldlM_replayOne_eq_ok_iff.mp decided
      have ran : (Command.replay batch.operations batch.totalOps).perform.start receiver =
          (.ok (.opsAck replayed.target.localCheckpoint),
            replayed.settle decisions engine) :=
        Receiving.replay_eq_ok_iff.mpr ⟨rested.phase, total.trans rested.total.symm, decisions,
          replayed, engine, replaying, refreshed, rfl, rfl⟩
      exact .inr ⟨_, _, lasts, handle_of_ok (going_of_ops rested.phase) ran ..,
        further.settle refreshed holds quiet advances decisions⟩

/-- However a history is divided into batches, all of them are acknowledged and
the engine ends with what is settled, unless the generations run out. -/
theorem Rested.handleAll {history held done : List Operation} {limit : Nat} {receiver : Receiver}
    {parts : List Part} (numbered : Numbered history) (subset : held ⊆ history)
    (rested : receiver.Rested history held done limit parts) {batches : List Batch}
    (total : ∀ batch ∈ batches, batch.totalOps.toNat = history.length)
    (remaining : done ++ Batch.delivered batches <+: history) :
    (UInt64.size ≤ limit + (Batch.delivered batches).length + batches.length ∧
      ∀ checkpoints : List Int64,
        (receiver.handleAll (batches.map Batch.request)).1 ≠ checkpoints.map .opsAck) ∨
    ∃ (checkpoints : List Int64) (others : List Part),
      (receiver.handleAll (batches.map Batch.request)).1 = checkpoints.map .opsAck ∧
      (receiver.handleAll (batches.map Batch.request)).2.Rested history held
        (done ++ Batch.delivered batches)
        (limit + (Batch.delivered batches).length + batches.length) others := by
  induction batches generalizing done limit receiver parts with
  | nil =>
      refine .inr ⟨[], parts, rfl, ?_⟩
      rw [Batch.delivered, List.flatMap_nil, List.append_nil]
      exact rested
  | cons batch batches ih =>
      have delivered : Batch.delivered (batch :: batches) =
          batch.operations ++ Batch.delivered batches := rfl
      rw [delivered, ← List.append_assoc] at remaining ⊢
      have first : done ++ batch.operations <+: history :=
        (List.prefix_append _ _).trans remaining
      rw [List.length_append, List.length_cons]
      simp only [List.map_cons, Receiver.handleAll]
      rcases rested.handle numbered subset (total batch List.mem_cons_self) first with
        ⟨full, refused⟩ | ⟨checkpoint, later, others, handled, further⟩
      · refine .inl ⟨by omega, fun checkpoints acked => ?_⟩
        cases checkpoints with
        | nil => cases acked
        | cons checkpoint checkpoints => exact refused checkpoint (List.cons.inj acked).1
      · rw [handled]
        have count : limit + batch.operations.length + 1 + (Batch.delivered batches).length +
            batches.length = limit + (batch.operations.length + (Batch.delivered batches).length) +
              (batches.length + 1) := by omega
        have outcome := ih further (fun other member => total other (List.mem_cons_of_mem _ member))
          remaining
        rw [count] at outcome
        rcases outcome with ⟨full, refused⟩ | ⟨checkpoints, lasts, acked, ended⟩
        · refine .inl ⟨full, fun checkpoints acked => ?_⟩
          cases checkpoints with
          | nil => cases acked
          | cons checkpoint checkpoints => exact refused checkpoints (List.cons.inj acked).2
        · exact .inr ⟨checkpoint :: checkpoints, lasts, congrArg _ acked, ended⟩

end Receiver

/-- A recovery has received segments that hold some operations of a history, and
replays all of it in batches. -/
structure PartialReplay (history : List Operation) (layout : Layout) (receiver : Receiver)
    (batches : List Batch) (opened : Receiver) : Prop where
  numbered : Numbered history
  held : layout.operations ⊆ history
  once : layout.operations.Nodup
  distinct : (layout.map (·.1)).Nodup
  reached : ∃ recovery shard, Target.Reached recovery shard receiver.target
  staged : receiver.staged = .ok layout.segments
  opens : ∃ number recovery shard totalOps, totalOps.toNat = history.length ∧
    receiver.handle (.step number recovery shard (.filesComplete 0 totalOps)) = (.ack, opened)
  divided : Batch.delivered batches = history
  total : ∀ batch ∈ batches, batch.totalOps.toNat = history.length

namespace PartialReplay

variable {history : List Operation} {layout : Layout} {receiver opened : Receiver}
  {batches : List Batch}

/-- When the files are complete, nothing has been decided about. -/
theorem rested (setting : PartialReplay history layout receiver batches opened) :
    ∃ parts, opened.Rested history layout.operations []
      opened.copy.engine.nextGeneration.toNat parts := by
  obtain ⟨number, recovery, shard, totalOps, total, handled⟩ := setting.opens
  have ran : (Receiving.filesComplete 0 totalOps).start receiver = (.ok .ack, opened) :=
    Receiver.perform_of_handle handled fun error same => by cases same
  obtain ⟨inFiles, _, _, announced, segments, engine, staged, prepared, copy, target, _⟩ :=
    Receiving.filesComplete_ok ran
  obtain ⟨_, _, reached⟩ := setting.reached
  have sound := reached.sound fun failed => by
    rw [show receiver.target.progress.phase = .files from inFiles] at failed
    cases failed
  obtain ⟨uncounted, _⟩ := sound.uncounted (.inr inFiles)
  have same : segments = layout.segments := by
    rw [setting.staged] at staged
    exact (Except.ok.inj staged).symm
  have increasing := setting.numbered.increasing
  let parts := layout.parts.mergeSort fun first second => first.generation ≤ second.generation
  have sorted : parts.Perm layout.parts := List.mergeSort_perm ..
  have ordered : byGeneration segments = parts.map Part.segment := by
    rw [same, byGeneration, Layout.segments]
    refine (List.map_mergeSort ?_).symm
    exact fun _ _ _ _ => rfl
  rw [ordered] at prepared
  have complete : ∀ part ∈ parts, ∀ entry ∈ part.builder.entries, entry.IsComplete := by
    intro part member entry listed
    obtain ⟨⟨generation, operations⟩, _, rfl⟩ := List.mem_map.mp (sorted.mem_iff.mp member)
    rw [show (layOut layout.operations operations).entries = _ from entries_layOut ..] at listed
    obtain ⟨operation, _, rfl⟩ := List.mem_map.mp listed
    exact isComplete_entryOf ..
  have distinct : (parts.map (·.generation)).Nodup := by
    refine (sorted.map _).nodup_iff.mpr ?_
    rw [Layout.parts, List.map_map]
    exact setting.distinct
  obtain ⟨holds, quiet⟩ := Engine.holds_prepare prepared complete distinct
    (live_parts increasing setting.once setting.held sorted)
  obtain ⟨soundTracker, processed⟩ := Engine.prepare_processed prepared
  refine ⟨parts, ⟨⟨?_, ?_, ?_, ?_, ?_, fun number positive => ?_, ?_, Nat.le_refl _⟩, ?_, ?_⟩⟩
  · rw [Receiver.phase, target]
  · rw [target]
    exact announced.symm.trans total
  · rw [target]
    rfl
  · rw [target]
    exact uncounted
  · rw [copy]
    exact soundTracker
  · rw [copy]
    dsimp only
    rw [processed, and_iff_left (by simpa using positive), ← ordered,
      Engine.mem_numbers_congr (byGeneration_perm segments), same, Layout.mem_numbers_iff]
  · rw [copy]
    exact holds
  · rw [copy]
    exact quiet
  · rw [target, copy]
    exact Resolver.coherent_empty _ _

end PartialReplay

end ShardSync.Recovery

namespace ShardSync.Engine

def applyAll (engine : Engine) : List Operation → Except EngineError Engine
  | [] => .ok engine
  | operation :: operations =>
      match engine.apply operation with
      | (.error error, _) => .error error
      | (.ok (), engine) => engine.applyAll operations

/-- The engine after a whole history, if it had nothing before. -/
def ofHistory (history : List Operation) : Except EngineError Engine := do
  let engine ← (← ofSegments []).applyAll history
  engine.refresh

theorem Holds.applyAll {engine : Engine} {parts : List Part}
    {documents : Bytes → Option Document} (holds : engine.Holds parts documents)
    {operations : List Operation} (admissible : ∀ operation ∈ operations, 0 ≤ operation.seqNo)
    (room : engine.nextGeneration.toNat + operations.length < UInt64.size) :
    ∃ later others, engine.applyAll operations = .ok later ∧
      later.Holds others (operations.foldl after documents) ∧
        later.nextGeneration.toNat ≤ engine.nextGeneration.toNat + operations.length := by
  induction operations generalizing engine parts documents with
  | nil => exact ⟨engine, parts, rfl, holds, Nat.le_refl _⟩
  | cons operation operations ih =>
      rw [List.length_cons] at room
      rcases holds.apply (admissible operation List.mem_cons_self) with
        ⟨full, _⟩ | ⟨between, middle, applied, held, advances⟩
      · omega
      · have spent := advances.most
        obtain ⟨later, others, ran, ended, bound⟩ := ih held
          (fun other member => admissible other (List.mem_cons_of_mem _ member)) (by omega)
        refine ⟨later, others, ?_, ended, ?_⟩
        · rw [Engine.applyAll, applied]
          exact ran
        · rw [List.length_cons]
          omega

/-- A history leaves on an empty engine what its last operations say. -/
theorem ofHistory_holds {history : List Operation} (numbered : Recovery.Numbered history)
    (short : history.length < 2 ^ 32) :
    ∃ engine parts, ofHistory history = .ok engine ∧
      engine.Holds parts (Recovery.afterAll history) ∧ engine.pending.entries = [] := by
  have prepared : ofSegments ([].map Part.segment) = .ok { isPrepared := true } := rfl
  obtain ⟨holds, _⟩ := holds_prepare prepared (fun part member => absurd member List.not_mem_nil)
    List.nodup_nil (fun id => show liveWith id [] = (none : Option Document).toList from rfl)
  have admissible : ∀ operation ∈ history, 0 ≤ operation.seqNo :=
    fun _ member => numbered.nonneg member
  have first : (1 : Generation).toNat = 1 := rfl
  have size : UInt64.size = 2 ^ 64 := rfl
  obtain ⟨later, others, ran, ended, bound⟩ := holds.applyAll admissible (by
    dsimp only
    omega)
  dsimp only at bound
  rcases ended.refresh with ⟨full, _⟩ | ⟨engine, lasts, refreshed, held, quiet, _⟩
  · omega
  · refine ⟨engine, lasts, ?_, held, quiet⟩
    have begun : ofSegments [] = .ok { isPrepared := true } := rfl
    rw [ofHistory, begun]
    simp only [bind, Except.bind, ran]
    exact refreshed

end ShardSync.Engine

namespace ShardSync.Recovery

/-- For an id, a replay over held operations ends with the document that the
whole history leaves exactly if it does not bring one back. All batches are
acknowledged as long as there are generations. -/
theorem PartialReplay.reports_iff {history : List Operation} {layout : Layout}
    {receiver opened : Receiver} {batches : List Batch}
    (setting : PartialReplay history layout receiver batches opened) :
    ∃ reference, Engine.ofHistory history = .ok reference ∧
      (opened.copy.engine.nextGeneration.toNat + history.length + batches.length < UInt64.size →
        ∃ checkpoints : List Int64,
          (opened.handleAll (batches.map Batch.request)).1 = checkpoints.map .opsAck) ∧
      ((∃ checkpoints : List Int64,
          (opened.handleAll (batches.map Batch.request)).1 = checkpoints.map .opsAck) →
        ∀ id, (opened.handleAll (batches.map Batch.request)).2.copy.engine.reports id =
            reference.reports id ↔
          ¬ Resurrected history layout.operations id) := by
  obtain ⟨number, recovery, shard, totalOps, total, _⟩ := setting.opens
  have short : history.length < 2 ^ 32 := by
    rw [← total]
    exact totalOps.toNat_lt
  obtain ⟨reference, referenceParts, same, whole, settledWhole⟩ :=
    Engine.ofHistory_holds setting.numbered short
  obtain ⟨parts, rested⟩ := setting.rested
  have remaining : [] ++ Batch.delivered batches <+: history := by
    rw [List.nil_append, setting.divided]
  have outcome := rested.handleAll setting.numbered setting.held setting.total remaining
  rw [List.nil_append, setting.divided] at outcome
  refine ⟨reference, same, fun room => ?_, fun ⟨checkpoints, acked⟩ id => ?_⟩
  · rcases outcome with ⟨full, _⟩ | ⟨checkpoints, _, acked, _⟩
    · omega
    · exact ⟨checkpoints, acked⟩
  · rcases outcome with ⟨_, refused⟩ | ⟨_, others, _, ended⟩
    · exact absurd acked (refused checkpoints)
    · rw [ended.holds.reports ended.quiet, whole.reports settledWhole, Except.ok.injEq]
      exact settled_eq_iff setting.numbered.increasing id

namespace PartialReplay

open Receiver

/-- A segment with one position, at which a document is deleted. -/
def deletionOnly : Bytes := [
    0x50, 0x52, 0x53, 0x47, 0x01, 0x01, 0x01, 0x01, 0x01, 0x00, 0x00, 0x00, 0x00, 0x00,
    0x00, 0x00, 0x02, 0x01, 0x01, 0x00, 0x00, 0x00, 0x00, 0x00, 0x00, 0x00, 0x01, 0x01,
    0x01, 0x00, 0x00, 0x00, 0x00, 0x00, 0x00, 0x00, 0x01, 0x01, 0x01, 0x00, 0x00, 0x00,
    0x00, 0x00, 0x00, 0x00, 0x01, 0x01, 0x01, 0x00, 0x00, 0x00, 0x00, 0x00, 0x00, 0x00,
    0x01, 0x01, 0x01, 0x01, 0x61, 0x01, 0x00, 0x01, 0x01, 0x00, 0xa5, 0xaf, 0xa0, 0x20]

/-- A document is written and deleted. -/
def removal : List Operation := [
  { seqNo := 0, primaryTerm := 1, action := .index "a" 1 [] },
  { seqNo := 1, primaryTerm := 1, action := .delete "a" 2 }]

/-- Of which only the deletion is held. -/
def removed : Layout := [(1, [{ seqNo := 1, primaryTerm := 1, action := .delete "a" 2 }])]

def untouched : Receiver := { target := { recovery := 77, shard := default }, copy := {} }

def removalTransfer : List Request := [
  .step 1 77 default <| .announce
    { names := ["_1.seg"], sizes := [70], existingNames := [], existingSizes := [] } 2,
  .step 2 77 default <| .transfer {
    file := { name := "_1.seg", length := 70, checksum := 3939874120 }
    position := 0, content := deletionOnly, isLast := true, checksum := 3939874120 } 2]

def removing : Receiver := (untouched.handleAll removalTransfer).2

def removalFiles : Request := .step 3 77 default (.filesComplete 0 2)

def removalBatch : Batch := ⟨4, 77, default, removal, 2⟩

theorem reached_removing : Target.Reached 77 default removing.target := by
  rw [removing]
  have first : Target.Reached 77 default untouched.target := .begun
  exact reached_handleAll first removalTransfer

set_option maxRecDepth 4096 in
theorem staged_removing : removing.staged = .ok removed.segments := by
  exact eq_ok_of_toOption (by decide +kernel)

set_option maxRecDepth 4096 in
theorem handle_removalFiles :
    removing.handle removalFiles = (.ack, (removing.handle removalFiles).2) := by
  exact Prod.fst_eq_iff.mp (by decide +kernel)

theorem partialReplay_removal :
    PartialReplay removal removed removing [removalBatch] (removing.handle removalFiles).2 where
  numbered := by
    rintro (_ | _ | index) operation found <;> cases found <;> rfl
  held := by decide
  once := by decide
  distinct := by decide
  reached := ⟨77, default, reached_removing⟩
  staged := staged_removing
  opens := ⟨3, 77, default, 2, rfl, handle_removalFiles⟩
  divided := rfl
  total := by decide

def restored : Receiver :=
  ((removing.handle removalFiles).2.handleAll ([removalBatch].map Batch.request)).2

theorem reports_iff_removal :
    PartialReplay removal removed removing [removalBatch] (removing.handle removalFiles).2 ∧
      ∃ reference, Engine.ofHistory removal = .ok reference ∧
        ((∃ checkpoints : List Int64, ((removing.handle removalFiles).2.handleAll
            ([removalBatch].map Batch.request)).1 = checkpoints.map .opsAck) →
          ∀ id, restored.copy.engine.reports id = reference.reports id ↔
            ¬ Resurrected removal removed.operations id) := by
  obtain ⟨reference, same, _, agrees⟩ := reports_iff partialReplay_removal
  rw [restored]
  exact ⟨partialReplay_removal, reference, same, agrees⟩

set_option maxRecDepth 4096 in
/-- The older operation finds no live document of the id and is applied, so that
the document is there again. -/
theorem not_reports_removal :
    ¬ ∀ (history : List Operation) (layout : Layout) (receiver opened : Receiver)
      (batches : List Batch) (checkpoints : List Int64) (reference : Engine),
      PartialReplay history layout receiver batches opened →
        (opened.handleAll (batches.map Batch.request)).1 = checkpoints.map .opsAck →
        Engine.ofHistory history = .ok reference →
        ∀ id, (opened.handleAll (batches.map Batch.request)).2.copy.engine.reports id =
          reference.reports id := by
  intro claimed
  have acked : ((removing.handle removalFiles).2.handleAll ([removalBatch].map Batch.request)).1 =
      [1].map .opsAck := by decide +kernel
  have absent : (Engine.ofHistory removal).toOption.map (·.reports "a" |>.toOption) =
      some (some none) := by decide +kernel
  have present : (restored.copy.engine.reports "a").toOption =
      some (some ⟨some 1, some 0, some 1⟩) := by decide +kernel
  cases applied : Engine.ofHistory removal with
  | error error =>
      rw [applied] at absent
      cases absent
  | ok reference =>
      have same : restored.copy.engine.reports "a" = reference.reports "a" := by
        rw [restored]
        exact claimed _ _ _ _ _ _ _ partialReplay_removal acked applied "a"
      rw [same] at present
      rw [applied] at absent
      have none : (reference.reports "a").toOption = some none := Option.some.inj absent
      rw [present] at none
      cases none

end PartialReplay

end ShardSync.Recovery
