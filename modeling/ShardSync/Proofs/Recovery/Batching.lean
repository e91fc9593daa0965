import ShardSync.Proofs.Engine.Holdings
import ShardSync.Proofs.Recovery.Coverage
import ShardSync.Proofs.Segment.Bounds
import ShardSync.Proofs.Store.Listing

/-!
# Batches do not matter

A target looks for held operations in the segments from the beginning of a batch,
which do not show what the batch has changed so far. All that this hides has a lower
sequence number than the next operation, so each decision is the one that the staged
segments call for, and the rows that are left depend on the operations only.
-/

set_option autoImplicit false

namespace ShardSync

/-- Whether the live row with the id of an operation is as young as the operation. The
row may have no sequence number to say so. -/
def Operation.isHeldIn? (operation : Operation) (rows : List Row) : Option Bool :=
  operation.key?.elim (some false) fun id =>
    (rows.find? (·.isLiveWith id)).elim (some false) fun row =>
      row.seqNo?.map fun seqNo => operation.seqNo ≤ seqNo

namespace Row

def IsBelow (row : Row) (cursor : Int) : Prop :=
  ∃ seqNo, row.seqNo? = some seqNo ∧ seqNo.toInt < cursor

theorem IsBelow.mono {row : Row} {cursor later : Int} (below : row.IsBelow cursor)
    (least : cursor ≤ later) : row.IsBelow later := by
  obtain ⟨seqNo, known, less⟩ := below
  exact ⟨seqNo, known, Int.lt_of_lt_of_le less least⟩

theorem IsBelow.older {row : Row} {cursor : Int} (below : row.IsBelow cursor)
    {operation : Operation} (least : cursor ≤ operation.seqNo.toInt) :
    row.seqNo?.map (fun seqNo => decide (operation.seqNo ≤ seqNo)) = some false := by
  obtain ⟨seqNo, known, less⟩ := below
  rw [known, Option.map_some, Option.some_inj, decide_eq_false_iff_not, Int64.le_iff_toInt_le]
  omega

/-- A live row that is in one of two lists only has a sequence number below the cursor. -/
structure AgreeFrom (cursor : Int) (first second : List Row) : Prop where
  left : ∀ row ∈ first, row.isLive = true → row ∈ second ∨ row.IsBelow cursor
  right : ∀ row ∈ second, row.isLive = true → row ∈ first ∨ row.IsBelow cursor

theorem AgreeFrom.refl (cursor : Int) (rows : List Row) : AgreeFrom cursor rows rows where
  left _ member _ := .inl member
  right _ member _ := .inl member

theorem AgreeFrom.mono {cursor later : Int} {first second : List Row}
    (agree : AgreeFrom cursor first second) (least : cursor ≤ later) :
    AgreeFrom later first second where
  left row member live := (agree.left row member live).imp_right (·.mono least)
  right row member live := (agree.right row member live).imp_right (·.mono least)

theorem isHeldIn?_eq_false {rows : List Row} {operation : Operation} {id : Bytes}
    (key : operation.key? = some id) {cursor : Int} (least : cursor ≤ operation.seqNo.toInt)
    (below : ∀ row ∈ rows, row.isLiveWith id = true → row.IsBelow cursor) :
    operation.isHeldIn? rows = some false := by
  rw [Operation.isHeldIn?, key, Option.elim_some]
  cases found : rows.find? (·.isLiveWith id) with
  | none => rfl
  | some row =>
      obtain ⟨member, live⟩ := of_find? found
      exact (below row member live).older least

/-- What is below the cursor makes no difference to the next operation. -/
theorem AgreeFrom.isHeldIn? {cursor : Int} {first second : List Row}
    (agree : AgreeFrom cursor first second) (single : AreSingle first)
    (singleToo : AreSingle second) {operation : Operation}
    (least : cursor ≤ operation.seqNo.toInt) :
    operation.isHeldIn? first = operation.isHeldIn? second := by
  cases key : operation.key? with
  | none => rw [Operation.isHeldIn?, Operation.isHeldIn?, key, Option.elim_none, Option.elim_none]
  | some id =>
      by_cases common : ∃ row ∈ first, row ∈ second ∧ row.isLiveWith id = true
      · obtain ⟨row, member, memberToo, live⟩ := common
        rw [Operation.isHeldIn?, Operation.isHeldIn?, key, Option.elim_some, Option.elim_some,
          single.find?_eq_some member live, singleToo.find?_eq_some memberToo live]
      · have left : operation.isHeldIn? first = some false :=
          isHeldIn?_eq_false key least fun row member live =>
            (agree.left row member (isLiveWith_iff.mp live).1).resolve_left fun known =>
              common ⟨row, member, known, live⟩
        have right : operation.isHeldIn? second = some false :=
          isHeldIn?_eq_false key least fun row member live =>
            (agree.right row member (isLiveWith_iff.mp live).1).resolve_left fun known =>
              common ⟨row, known, member, live⟩
        rw [left, right]

/-- An operation that is not held kills an older row, and adds one with its own number. -/
theorem AgreeFrom.rowsAfter {first second : List Row} {operation : Operation}
    (agree : AgreeFrom operation.seqNo.toInt first second) (single : AreSingle first)
    (fresh : operation.isHeldIn? first = some false) :
    AgreeFrom (operation.seqNo.toInt + 1) first (operation.rowsAfter second) := by
  have further : operation.seqNo.toInt ≤ operation.seqNo.toInt + 1 := by omega
  unfold Operation.rowsAfter
  constructor
  · intro row member live
    rcases agree.left row member live with known | below
    · cases key : operation.key? with
      | none => exact .inl (List.mem_append_left _ known)
      | some id =>
          cases carries : row.isLiveWith id with
          | false => exact .inl (List.mem_append_left _ (mem_without_of_mem known carries))
          | true =>
              refine .inr ?_
              rw [Operation.isHeldIn?, key, Option.elim_some, single.find?_eq_some member carries,
                Option.elim_some, Option.map_eq_some_iff] at fresh
              obtain ⟨seqNo, number, younger⟩ := fresh
              rw [decide_eq_false_iff_not, Int64.le_iff_toInt_le] at younger
              exact ⟨seqNo, number, by omega⟩
    · exact .inr (below.mono further)
  · intro row member live
    rcases List.mem_append.mp member with kept | added
    · have known : row ∈ second := by
        cases key : operation.key? with
        | none =>
            rw [key] at kept
            exact kept
        | some id =>
            rw [key] at kept
            exact mem_of_mem_without kept live
      exact (agree.right row known live).imp_right (·.mono further)
    · rw [List.mem_singleton.mp added]
      exact .inr ⟨operation.seqNo, operation.seqNo?_document, by omega⟩

end Row

namespace Recovery

/-- The decision that the holdings of an engine call for. -/
def decideBy (holdings : Holdings) (operation : Operation) : Decision :=
  if holdings.tracker.hasProcessed operation.seqNo.toInt then .processed operation
  else if operation.isHeldIn? holdings.rows = some true then .superseded operation
  else .applied operation

namespace Receiver

theorem seqNo?_of_seqNoHit {segment : Segment} {position : Nat} {hit : SeqNoHit}
    (read : Lookup.seqNoHit segment position = .ok hit) :
    (segment.row position).seqNo? = some hit.seqNo := by
  unfold Lookup.seqNoHit Lookup.value at read
  unfold Segment.row
  dsimp only
  cases known : segment.seqNos?.bind (·.get? position) with
  | none =>
      rw [known] at read
      cases read
  | some seqNo =>
      rw [known] at read
      cases read
      rfl

/-- The search of a target finds out whether an operation is held. -/
theorem search_held {snapshot : Engine} (shelf : snapshot.Tidy)
    (quiet : snapshot.pending.entries = []) {receiver : Receiver}
    (faithful : receiver.target.resolver.Faithful snapshot.segments snapshot.nextGeneration)
    {operation : Operation} {hit? : Option SeqNoHit} {resolver : Resolver}
    (found : receiver.search snapshot.segments operation = (.ok hit?, resolver)) :
    operation.isHeldIn? snapshot.rows = some (hit?.any (operation.seqNo ≤ ·.seqNo)) ∧
      resolver.Faithful snapshot.segments snapshot.nextGeneration := by
  unfold search at found
  unfold Operation.isHeldIn? Operation.key?
  cases named : operation.id? with
  | none =>
      rw [named] at found
      cases found
      exact ⟨rfl, faithful⟩
  | some id =>
      rw [named] at found
      dsimp only at found
      have searched : receiver.target.resolver.seqNo snapshot.segments (Text.Utf8.encode id) =
          (receiver.target.resolver.evict snapshot.segments).search
            (·.report (Text.Utf8.encode id) Lookup.seqNoHit) snapshot.segments.reverse := rfl
      rw [Option.map_some, Option.elim_some]
      obtain ⟨after, faithfulAfter, outcome⟩ :=
        shelf.search (Engine.findLive?_of_empty quiet (Text.Utf8.encode id)) faithful
          Lookup.seqNoHit
      rw [searched] at found
      rcases outcome with ⟨none, same⟩ | ⟨segment, member, position, inside, live, same⟩
      · rw [same] at found
        cases found
        have missing : snapshot.rows.find? (·.isLiveWith (Text.Utf8.encode id)) = .none :=
          List.find?_eq_none.mpr fun row member => ne_true_of_eq_false (none row member)
        rw [missing]
        exact ⟨rfl, faithfulAfter⟩
      · rw [same] at found
        rw [shelf.single.find?_eq_some (Engine.mem_rows member inside) live, Option.elim_some]
        cases read : Lookup.seqNoHit segment position with
        | error error =>
            rw [read] at found
            cases found
        | ok hit =>
            rw [read] at found
            cases found
            rw [seqNo?_of_seqNoHit read]
            exact ⟨rfl, faithfulAfter⟩

/-- What a replay has come to at a place: the decisions are those that the staged segments
call for, and the engine holds what these decisions make of it. -/
structure Follows (holdings : Holdings) (decisions : List Decision) (place : Int)
    (receiver : Receiver) : Prop where
  tidy : receiver.copy.engine.Tidy
  decided : decisions = (decisions.map Decision.operation).map (decideBy holdings)
  held : receiver.copy.engine.holdings =
    (decisions.filterMap Decision.applied?).foldl Holdings.after holdings
  agree : Row.AgreeFrom place holdings.rows receiver.copy.engine.rows
  sound : receiver.copy.engine.tracker.Sound
  processed : ∀ number, place ≤ number →
    receiver.copy.engine.hasProcessed number = holdings.tracker.hasProcessed number

/-- In a batch, the target looks into the segments that the engine had before it. -/
structure Peruses (holdings : Holdings) (snapshot : Engine) (decisions : List Decision)
    (place : Int) (receiver : Receiver) : Prop
    extends Follows holdings decisions place receiver where
  faithful : receiver.target.resolver.Faithful snapshot.segments snapshot.nextGeneration
  grows : snapshot.Grows receiver.copy.engine
  stale : Row.AgreeFrom place holdings.rows snapshot.rows

theorem operation_decideBy (holdings : Holdings) (operation : Operation) :
    (decideBy holdings operation).operation = operation := by
  unfold decideBy
  split
  · rfl
  · split <;> rfl

theorem decided_concat {holdings : Holdings} {decisions : List Decision} {operation : Operation}
    {decision : Decision}
    (decided : decisions = (decisions.map Decision.operation).map (decideBy holdings))
    (called : decideBy holdings operation = decision) :
    decisions ++ [decision] =
      ((decisions ++ [decision]).map Decision.operation).map (decideBy holdings) := by
  rw [List.map_append, List.map_append, ← decided, List.map_singleton, List.map_singleton,
    ← called, operation_decideBy]

section

variable {holdings : Holdings} {snapshot : Engine} {decisions : List Decision} {place : Int}
  {receiver between : Receiver} {operation : Operation} {decision : Decision}

theorem Peruses.skip (peruses : receiver.Peruses holdings snapshot decisions place)
    (called : decideBy holdings decision.operation = decision) (skips : decision.applied? = none)
    {resolver : Resolver}
    (faithful : resolver.Faithful snapshot.segments snapshot.nextGeneration) :
    (Receiver.advance { receiver with target.resolver := resolver }).Peruses holdings snapshot
      (decisions ++ [decision]) (place + 1) := by
  have further : place ≤ place + 1 := by omega
  constructor
  case toFollows =>
    refine ⟨peruses.tidy, decided_concat peruses.decided called, ?_, peruses.agree.mono further,
      peruses.sound, fun number beyond => peruses.processed number (Int.le_trans further beyond)⟩
    rw [List.filterMap_append, List.filterMap_cons_none skips, List.filterMap_nil,
      List.append_nil]
    exact peruses.held
  case faithful => exact faithful
  case grows => exact peruses.grows
  case stale => exact peruses.stale.mono further

theorem Peruses.apply (peruses : receiver.Peruses holdings snapshot decisions place)
    (single : Row.AreSingle holdings.rows) (next : operation.seqNo.toInt = place)
    (called : decideBy holdings operation = .applied operation)
    (fresh : operation.isHeldIn? holdings.rows = some false) {resolver : Resolver}
    (faithful : resolver.Faithful snapshot.segments snapshot.nextGeneration) {engine : Engine}
    (ran : receiver.copy.engine.apply operation = (.ok (), engine)) :
    (Receiver.advance { receiver with
      target.resolver := resolver, copy.engine := engine }).Peruses holdings snapshot
      (decisions ++ [.applied operation]) (place + 1) := by
  have further : place ≤ place + 1 := by omega
  obtain ⟨tidy, grows, held⟩ := peruses.tidy.apply ran
  obtain ⟨sound, processed⟩ := Engine.apply_processed peruses.sound ran
  have agree : Row.AgreeFrom operation.seqNo.toInt holdings.rows receiver.copy.engine.rows := by
    rw [next]
    exact peruses.agree
  have rows : engine.rows = operation.rowsAfter receiver.copy.engine.rows :=
    congrArg (·.rows) held
  constructor
  case toFollows =>
    refine ⟨tidy, decided_concat peruses.decided called, ?_, ?_, sound, fun number beyond => ?_⟩
    · rw [List.filterMap_append, List.foldl_append, ← peruses.held]
      exact held
    · change Row.AgreeFrom (place + 1) holdings.rows engine.rows
      rw [rows, ← next]
      exact agree.rowsAfter single fresh
    · rw [← peruses.processed number (Int.le_trans further beyond), Bool.eq_iff_iff]
      refine (processed number).trans (or_iff_left ?_)
      rintro ⟨same, _⟩
      omega
  case faithful => exact faithful
  case grows => exact peruses.grows.trans grows
  case stale => exact peruses.stale.mono further

/-- A decision in a batch is the one that the staged segments call for. -/
theorem Peruses.decides (peruses : receiver.Peruses holdings snapshot decisions place)
    (single : Row.AreSingle holdings.rows) (shelf : snapshot.Tidy)
    (quiet : snapshot.pending.entries = []) (next : operation.seqNo.toInt = place)
    (decides : receiver.Decides snapshot.segments operation decision between) :
    between.advance.Peruses holdings snapshot (decisions ++ [decision]) (place + 1) := by
  have cursor := Int.le_of_eq next.symm
  have known := peruses.processed operation.seqNo.toInt cursor
  have held := peruses.stale.isHeldIn? single shelf.single cursor
  cases decides with
  | processed before =>
      refine peruses.skip ?_ rfl peruses.faithful
      rw [Decision.operation, decideBy, ← known, before, if_pos rfl]
  | @superseded hit resolver fresh found newer =>
      obtain ⟨isHeld, faithful⟩ := search_held shelf quiet peruses.faithful found
      refine peruses.skip ?_ rfl faithful
      rw [Decision.operation, decideBy, ← known, fresh, if_neg Bool.false_ne_true, held, isHeld,
        Option.any_some, decide_eq_true newer, if_pos rfl]
  | @applied hit? resolver engine fresh found older ran =>
      obtain ⟨isHeld, faithful⟩ := search_held shelf quiet peruses.faithful found
      rw [older, ← held] at isHeld
      refine peruses.apply single next ?_ isHeld faithful ran
      rw [decideBy, ← known, fresh, if_neg Bool.false_ne_true, isHeld, if_neg]
      simp

theorem Peruses.sequenced {operations : List Operation} {later : List Decision}
    {final : Receiver}
    (sequenced : Sequenced snapshot.segments place receiver operations later final)
    (single : Row.AreSingle holdings.rows) (shelf : snapshot.Tidy)
    (quiet : snapshot.pending.entries = [])
    (peruses : receiver.Peruses holdings snapshot decisions place) :
    final.Peruses holdings snapshot (decisions ++ later) (place + later.length) := by
  -- searches see the segments from the beginning of the batch all along
  induction sequenced generalizing decisions with
  | done =>
      rw [List.append_nil, List.length_nil, Nat.cast_zero, Int.add_zero]
      exact peruses
  | passed seen rest ih => exact ih peruses
  | @decided place _ _ _ _ _ _ later next decides rest ih =>
      have further := ih (peruses.decides single shelf quiet next decides)
      have length : place + 1 + (later.length : Int) = place + (later.length + 1 : Nat) := by omega
      rw [List.append_assoc, length] at further
      exact further

end

/-- Between two batches nothing is pending, and the cache of the target fits the
segments. -/
structure Batched (opened : Receiver) (delivered : List Operation) (decisions : List Decision)
    (current : Receiver) : Prop extends opened.Replays delivered decisions current,
    current.Follows opened.copy.engine.holdings decisions
      (opened.target.nextSeqNo.toInt + decisions.length) where
  quiet : current.copy.engine.pending.entries = []
  faithful : current.target.resolver.Faithful current.copy.engine.segments
    current.copy.engine.nextGeneration

theorem Batched.handle {opened current : Receiver} {delivered : List Operation}
    {decisions : List Decision} (single : Row.AreSingle opened.copy.engine.rows)
    (batched : opened.Batched delivered decisions current) {batch : Batch} {checkpoint : Int64}
    (acknowledged : (current.handle batch.request).1 = .opsAck checkpoint)
    (lasts : opened.target.Lasts opened.target.nextSeqNo.toInt batch.operations) :
    ∃ later, opened.Batched (delivered ++ batch.operations) (decisions ++ later)
      (current.handle batch.request).2 := by
  have ran := perform_of_handle (Prod.ext acknowledged rfl) fun error same => by cases same
  obtain ⟨_, _, later, replayed, engine, replaying, refreshed, settled, _⟩ :=
    Receiving.replay_eq_ok_iff.mp ran
  have peruses : current.Peruses opened.copy.engine.holdings current.copy.engine decisions
      (opened.target.nextSeqNo.toInt + decisions.length) :=
    ⟨batched.toFollows, batched.faithful, .of_same rfl rfl, batched.agree⟩
  obtain ⟨sequenced, _⟩ := replaying.sequenced batched.stands (batched.lasts lasts)
  have further := Peruses.sequenced sequenced single batched.tidy batched.quiet peruses
  rw [Int.add_assoc, ← Int.natCast_add, ← List.length_append] at further
  obtain ⟨tidy, grows, held, quiet⟩ := further.tidy.refresh refreshed
  have tracker : engine.tracker = replayed.copy.engine.tracker := congrArg (·.tracker) held
  have rows : engine.rows = replayed.copy.engine.rows := congrArg (·.rows) held
  refine ⟨later, ?_⟩
  rw [show (current.handle batch.request).2 = _ from settled]
  constructor
  case toReplays => exact batched.toReplays.settle replaying refreshed lasts
  case toFollows =>
    refine ⟨tidy, further.decided, held.trans further.held, ?_, ?_, fun number beyond => ?_⟩
    · change Row.AgreeFrom _ opened.copy.engine.rows engine.rows
      rw [rows]
      exact further.agree
    · change engine.tracker.Sound
      rw [tracker]
      exact further.sound
    · change engine.tracker.hasProcessed number = _
      rw [tracker]
      exact further.processed number beyond
  case quiet => exact quiet
  case faithful =>
    have grown := further.grows.trans grows
    exact further.faithful.grow grown.fresh grown.least

theorem Batched.handleAll {opened current : Receiver} {delivered : List Operation}
    {decisions : List Decision} (single : Row.AreSingle opened.copy.engine.rows)
    (batched : opened.Batched delivered decisions current) {batches : List Batch}
    {checkpoints : List Int64}
    (acknowledged : (current.handleAll (batches.map Batch.request)).1 =
      checkpoints.map .opsAck)
    (lasts : opened.target.Lasts opened.target.nextSeqNo.toInt (Batch.delivered batches)) :
    ∃ later, opened.Batched (delivered ++ Batch.delivered batches) (decisions ++ later)
      (current.handleAll (batches.map Batch.request)).2 := by
  induction batches generalizing current delivered decisions checkpoints with
  | nil =>
      refine ⟨[], ?_⟩
      rw [Batch.delivered, List.flatMap_nil, List.append_nil, List.append_nil]
      exact batched
  | cons batch batches ih =>
      cases checkpoints with
      | nil => cases acknowledged
      | cons checkpoint checkpoints =>
          simp only [List.map_cons, Receiver.handleAll, List.cons.injEq] at acknowledged ⊢
          obtain ⟨later, further⟩ := batched.handle single acknowledged.1
            (lasts.mono (List.subset_append_left ..))
          obtain ⟨latest, ended⟩ := ih further acknowledged.2
            (lasts.mono (List.subset_append_right ..))
          refine ⟨later ++ latest, ?_⟩
          rw [← List.append_assoc, Batch.delivered, List.flatMap_cons, ← List.append_assoc]
          exact ended

theorem isMasked_staged {receiver : Receiver} {segments : List Segment}
    (staged : receiver.staged = .ok segments) : ∀ segment ∈ segments, segment.IsMasked := by
  intro segment member
  obtain ⟨file, _, read⟩ := exists_mem_of_mapM staged member
  obtain ⟨content, -, -, decoded⟩ := readSegment_eq_ok_iff.mp read
  exact Segment.isMasked_decode decoded

/-- A replay that is opened has decided about nothing, and its engine holds the rows of
the staged segments. -/
theorem batched_opened {recovery : Int64} {shard : ShardId} {receiver opened : Receiver}
    (reached : Target.Reached recovery shard receiver.target) {segments : List Segment}
    (staged : receiver.staged = .ok segments) (distinct : (segments.map (·.generation)).Nodup)
    (single : ∀ id, (segments.flatMap (·.livePositions id)).length ≤ 1)
    {number startSeqNo : Int64} {totalOps : UInt32}
    (opens : receiver.handle (.step number recovery shard (.filesComplete startSeqNo totalOps)) =
      (.ack, opened)) :
    Row.AreSingle opened.copy.engine.rows ∧ opened.Batched [] [] opened ∧
      opened.target.nextSeqNo = startSeqNo ∧ opened.target.totalOps = totalOps.toNat := by
  have ran : (Receiving.filesComplete startSeqNo totalOps).start receiver = (.ok .ack, opened) :=
    perform_of_handle opens fun error same => by cases same
  obtain ⟨inFiles, _, _, total, others, engine, stagedToo, prepared, copy, target, _⟩ :=
    Receiving.filesComplete_ok ran
  rw [staged] at stagedToo
  cases stagedToo
  have sorted := byGeneration_perm segments
  have sound := reached.sound fun failed => by
    rw [show receiver.target.progress.phase = .files from inFiles] at failed
    cases failed
  obtain ⟨counted, _⟩ := sound.uncounted (.inr inFiles)
  obtain ⟨tidy, quiet, _⟩ := Engine.tidy_prepare prepared
    (fun segment member => isMasked_staged staged segment (sorted.mem_iff.mp member))
    ((sorted.map _).nodup_iff.mpr distinct)
    ((Segment.areSingle_rows single).perm (sorted.symm.flatMap_right _))
  have inOps : opened.phase = .ops := congrArg (·.progress.phase) target
  have fresh := replays_opened inOps (by rw [target]; dsimp only; omega)
  have same : opened.copy.engine = engine := by rw [copy]
  subst same
  refine ⟨tidy.single, ?_, by rw [target], by rw [target]; exact total.symm⟩
  constructor
  case toReplays => exact fresh
  case toFollows =>
    exact ⟨tidy, rfl, rfl, .refl _ _, (Engine.prepare_processed prepared).1, fun _ _ => rfl⟩
  case quiet => exact quiet
  case faithful =>
    rw [target]
    exact Resolver.faithful_empty _ _

end Receiver

/-- The batches bring all of the operations and no others. They may bring them more than
once. -/
structure Batch.Deliver (batches : List Batch) (operations : List Operation) : Prop where
  only : Batch.delivered batches ⊆ operations
  whole : operations ⊆ Batch.delivered batches

namespace Receiver

/-- All of the operations have been decided about, each of them once and in order. -/
theorem Replays.operations_eq {opened current : Receiver} {batches : List Batch}
    {operations : List Operation} {decisions : List Decision}
    (replays : opened.Replays (Batch.delivered batches) decisions current)
    (deliver : Batch.Deliver batches operations)
    (contiguous : operations.map (·.seqNo.toInt) =
      consecutive opened.target.nextSeqNo.toInt operations.length) :
    decisions.map Decision.operation = operations := by
  have listed (number : Int) : (∃ operation ∈ operations, operation.seqNo.toInt = number) ↔
      opened.target.nextSeqNo.toInt ≤ number ∧
        number < opened.target.nextSeqNo.toInt + operations.length := by
    rw [← List.mem_map, contiguous, mem_consecutive_iff]
  have accepted : Receiver.accepted opened.target.nextSeqNo.toInt (Batch.delivered batches) =
      Finset.Ico opened.target.nextSeqNo.toInt
        (opened.target.nextSeqNo.toInt + operations.length) := by
    rw [Finset.Subset.antisymm (accepted_mono deliver.only) (accepted_mono deliver.whole)]
    ext number
    rw [mem_accepted_iff, listed, Finset.mem_Ico]
    exact and_iff_left_of_imp And.left
  have length : decisions.length = operations.length := by
    have counted := congrArg Finset.card (replays.accepted.symm.trans accepted)
    rw [Int.card_Ico, Int.card_Ico] at counted
    omega
  have apart : (operations.map (·.seqNo.toInt)).Nodup := by
    rw [contiguous]
    exact (pairwise_consecutive _ _).imp Int.ne_of_lt
  have numbers : decisions.map Decision.seqNo = operations.map (·.seqNo.toInt) := by
    rw [replays.numbers, contiguous, length]
  refine List.ext_getElem (by rw [List.length_map, length]) fun index within inside => ?_
  rw [List.length_map] at within
  have decided := deliver.only (replays.operation_mem _ (List.getElem_mem within))
  have same := List.getElem_of_eq numbers (by rw [List.length_map]; exact within)
  rw [List.getElem_map, List.getElem_map] at same
  rw [List.getElem_map]
  exact List.inj_on_of_nodup_map apart decided (List.getElem_mem inside) same

/-- Of operations with consecutive numbers, none can be mistaken for what follows the last
sequence number. -/
theorem lasts_contiguous {target : Target} (total : target.totalOps < 2 ^ 32)
    {operations : List Operation}
    (contiguous : operations.map (·.seqNo.toInt) =
      consecutive target.nextSeqNo.toInt operations.length) :
    target.Lasts target.nextSeqNo.toInt operations := by
  rcases Int.lt_or_le target.nextSeqNo.toInt (-2 ^ 63 + 1) with least | above
  · exact .inl (by omega)
  · refine .inr fun operation member same => ?_
    have listed : operation.seqNo.toInt ∈ operations.map (·.seqNo.toInt) :=
      List.mem_map_of_mem member
    rw [contiguous, mem_consecutive_iff, same] at listed
    have bottom : (Int64.minValue).toInt = -2 ^ 63 := by decide
    omega

/-- Batching does not matter. However operations with consecutive numbers are cut into
batches and sent again, if every batch is acknowledged, the same is replayed and skipped,
and the same can be seen of the engine. -/
theorem batches_alike {recovery : Int64} {shard : ShardId}
    {receiver opened first second : Receiver}
    (reached : Target.Reached recovery shard receiver.target) {segments : List Segment}
    (staged : receiver.staged = .ok segments) (distinct : (segments.map (·.generation)).Nodup)
    (single : ∀ id, (segments.flatMap (·.livePositions id)).length ≤ 1)
    {number startSeqNo : Int64} {totalOps : UInt32}
    (opens : receiver.handle (.step number recovery shard (.filesComplete startSeqNo totalOps)) =
      (.ack, opened))
    {operations : List Operation}
    (contiguous : operations.map (·.seqNo.toInt) =
      consecutive startSeqNo.toInt operations.length)
    {batches others : List Batch} (deliver : Batch.Deliver batches operations)
    (deliverToo : Batch.Deliver others operations) {checkpoints further : List Int64}
    (acknowledged : opened.handleAll (batches.map Batch.request) =
      (checkpoints.map .opsAck, first))
    (acknowledgedToo : opened.handleAll (others.map Batch.request) =
      (further.map .opsAck, second)) :
    first.target.localCheckpoint = second.target.localCheckpoint ∧
      first.target.progress.opsRecovered = second.target.progress.opsRecovered ∧
      first.target.progress.opsSkipped = second.target.progress.opsSkipped ∧
      first.copy.engine.Alike second.copy.engine := by
  obtain ⟨singleRows, batched, start, total⟩ :=
    batched_opened reached staged distinct single opens
  rw [← start] at contiguous
  have lasts := lasts_contiguous (total.symm ▸ totalOps.toNat_lt) contiguous
  have outcome {batches : List Batch} {checkpoints : List Int64} {final : Receiver}
      (deliver : Batch.Deliver batches operations)
      (acknowledged : opened.handleAll (batches.map Batch.request) =
        (checkpoints.map .opsAck, final)) :
      opened.Batched (Batch.delivered batches)
        (operations.map (decideBy opened.copy.engine.holdings)) final := by
    obtain ⟨decisions, after⟩ :=
      batched.handleAll singleRows (congrArg Prod.fst acknowledged) (lasts.mono deliver.only)
    rw [acknowledged, List.nil_append, List.nil_append] at after
    rw [← after.toReplays.operations_eq deliver contiguous, ← after.decided]
    exact after
  have one := outcome deliver acknowledged
  have other := outcome deliverToo acknowledgedToo
  refine ⟨?_, ?_, ?_, ?_⟩
  · rw [one.stands.localCheckpoint, other.stands.localCheckpoint]
  · rw [one.opsRecovered, other.opsRecovered]
  · rw [one.opsSkipped, other.opsSkipped]
  · exact one.tidy.alike other.tidy one.quiet other.quiet (one.held.trans other.held.symm)

/-- The target has received a segment that holds the second operation. -/
def receivingSecond : Receiver :=
  (handleAll { target := { recovery := 1, shard := default }, copy := {} } [
    .step 1 1 default <| .announce
      { names := ["_1.seg"], sizes := [50], existingNames := [], existingSizes := [] } 4,
    .step 2 1 default <| .transfer {
      file := { name := "_1.seg", length := 50, checksum := 1017060992 }
      position := 0, content := Watched.secondOnly, isLast := true, checksum := 1017060992 } 4]).2

def stagedSecond : List Segment := receivingSecond.staged.toOption.getD []

def openedSecond : Receiver := (receivingSecond.handle (.step 3 1 default (.filesComplete 0 4))).2

def rewrites : List Operation := [
  { seqNo := 0, primaryTerm := 1, action := .index "a" 1 [] },
  { seqNo := 1, primaryTerm := 1, action := .index "a" 2 [] },
  { seqNo := 2, primaryTerm := 1, action := .index "a" 3 [] },
  { seqNo := 3, primaryTerm := 1, action := .index "a" 4 [] }]

def batchOf (operations : List Operation) : Batch :=
  { number := 4, recovery := 1, shard := default, operations, totalOps := 4 }

/-- All operations at once. -/
def undivided : List Batch := [batchOf rewrites]

/-- Two batches, of which the second begins with the last operation of the first. -/
def dividedTwice : List Batch := [batchOf (rewrites.take 3), batchOf (rewrites.drop 2)]

/-- What the target holds after the batches. -/
def replayedSecond (batches : List Batch) : Receiver :=
  (openedSecond.handleAll (batches.map Batch.request)).2

theorem handleAll_openedSecond {batches : List Batch} {checkpoints : List Int64}
    (acknowledged : (openedSecond.handleAll (batches.map Batch.request)).1 =
      checkpoints.map .opsAck) :
    openedSecond.handleAll (batches.map Batch.request) =
      (checkpoints.map .opsAck, replayedSecond batches) := Prod.ext acknowledged rfl

theorem single_stagedSecond (id : Bytes) :
    (stagedSecond.flatMap (·.livePositions id)).length ≤ 1 := by
  have small : stagedSecond.map (·.maxDoc) = [1] := by decide +kernel
  obtain ⟨segment, only, size⟩ := List.map_eq_singleton_iff.mp small
  rw [only, List.flatMap_singleton]
  refine Nat.le_trans (List.length_filter_le _ _) ?_
  rw [List.length_range, size]

theorem staged_receivingSecond : receivingSecond.staged = .ok stagedSecond := by
  have read : receivingSecond.staged.toOption.isSome = true := by decide +kernel
  unfold stagedSecond
  cases outcome : receivingSecond.staged with
  | error error =>
      rw [outcome] at read
      cases read
  | ok segments => rfl

set_option maxRecDepth 4096 in
theorem batches_alike_rewrites :
    Target.Reached 1 default receivingSecond.target ∧
      receivingSecond.staged = .ok stagedSecond ∧
      (stagedSecond.map (·.generation)).Nodup ∧
      (∀ id, (stagedSecond.flatMap (·.livePositions id)).length ≤ 1) ∧
      receivingSecond.handle (.step 3 1 default (.filesComplete 0 4)) = (.ack, openedSecond) ∧
      rewrites.map (·.seqNo.toInt) = consecutive (0 : Int64).toInt rewrites.length ∧
      Batch.Deliver undivided rewrites ∧ Batch.Deliver dividedTwice rewrites ∧
      openedSecond.handleAll (undivided.map Batch.request) =
        ([(3 : Int64)].map .opsAck, replayedSecond undivided) ∧
      openedSecond.handleAll (dividedTwice.map Batch.request) =
        ([(2 : Int64), 3].map .opsAck, replayedSecond dividedTwice) ∧
      (replayedSecond undivided).copy.engine.Alike (replayedSecond dividedTwice).copy.engine := by
  have reached : Target.Reached 1 default receivingSecond.target := by
    rw [receivingSecond]
    exact reached_handleAll .begun _
  have distinct : (stagedSecond.map (·.generation)).Nodup := by decide +kernel
  have opens : receivingSecond.handle (.step 3 1 default (.filesComplete 0 4)) =
      (.ack, openedSecond) := by
    have reply : (receivingSecond.handle (.step 3 1 default (.filesComplete 0 4))).1 = .ack := by
      decide +kernel
    rw [openedSecond, ← reply]
  have contiguous : rewrites.map (·.seqNo.toInt) =
      consecutive (0 : Int64).toInt rewrites.length := by decide +kernel
  have whole : Batch.Deliver undivided rewrites := ⟨by decide, by decide⟩
  have overlapping : Batch.Deliver dividedTwice rewrites := ⟨by decide, by decide⟩
  have once : openedSecond.handleAll (undivided.map Batch.request) =
      ([(3 : Int64)].map .opsAck, replayedSecond undivided) :=
    handleAll_openedSecond (by decide +kernel)
  have twice : openedSecond.handleAll (dividedTwice.map Batch.request) =
      ([(2 : Int64), 3].map .opsAck, replayedSecond dividedTwice) :=
    handleAll_openedSecond (by decide +kernel)
  obtain ⟨_, _, _, alike⟩ := batches_alike reached staged_receivingSecond distinct
    single_stagedSecond opens contiguous whole overlapping once twice
  exact ⟨reached, staged_receivingSecond, distinct, single_stagedSecond, opens, contiguous, whole,
    overlapping, once, twice, alike⟩

end Receiver

end Recovery

end ShardSync
