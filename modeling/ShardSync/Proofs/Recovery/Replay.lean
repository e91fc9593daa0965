import ShardSync.Proofs.Recovery.Phases

/-!
# Replaying a batch

What a target decides about each operation of a batch: an operation that comes
again is passed over, and the next one is applied, or skipped because the shard
reflects it already. The main statement says that a batch is acknowledged only
after such a run of decisions, and what the counts are then.
-/

set_option autoImplicit false

namespace ShardSync.Recovery

/-- What is done about an operation when it is the next one. -/
inductive Decision where
  | applied (operation : Operation)
  /-- It is skipped, because the engine has processed its sequence number. -/
  | processed (operation : Operation)
  /-- It is skipped, because a segment holds a document with its id and its
  sequence number or a higher one. -/
  | superseded (operation : Operation)
deriving Repr, DecidableEq

namespace Decision

def operation : Decision → Operation
  | .applied operation | .processed operation | .superseded operation => operation

def seqNo (decision : Decision) : Int := decision.operation.seqNo.toInt

def applied? : Decision → Option Operation
  | .applied operation => some operation
  | _ => none

def isSkip (decision : Decision) : Bool := decision.applied?.isNone

@[simp] theorem isSkip_applied (operation : Operation) : (applied operation).isSkip = false := rfl

@[simp] theorem isSkip_processed (operation : Operation) :
    (processed operation).isSkip = true := rfl

@[simp] theorem isSkip_superseded (operation : Operation) :
    (superseded operation).isSkip = true := rfl

/-- Every decision applies its operation or skips it. -/
theorem length_applied_add_countP (decisions : List Decision) :
    (decisions.filterMap applied?).length + decisions.countP isSkip = decisions.length := by
  induction decisions with
  | nil => rfl
  | cons decision decisions ih =>
      cases decision <;> simp [applied?, List.filterMap_cons, List.countP_cons] <;> omega

end Decision

namespace Receiver

/-- The search for the document of an operation in the given segments. -/
def search (receiver : Receiver) (segments : List Segment) (operation : Operation) :
    Except SegmentError (Option SeqNoHit) × Resolver :=
  match operation.id? with
  | none => (.ok none, receiver.target.resolver)
  | some id => receiver.target.resolver.seqNo segments (Text.Utf8.encode id)

/-- An operation has been decided about. -/
def advance (receiver : Receiver) : Receiver :=
  { receiver with
    target.nextSeqNo := receiver.target.nextSeqNo + 1
    target.opsRecovered := receiver.target.opsRecovered + 1 }

/-- A decision about an operation, and what it changes besides the cursor. -/
inductive Decides (segments : List Segment) (receiver : Receiver) (operation : Operation) :
    Decision → Receiver → Prop where
  | processed (before : receiver.copy.engine.hasProcessed operation.seqNo.toInt = true) :
      Decides segments receiver operation (.processed operation) receiver
  | superseded {hit : SeqNoHit} {resolver : Resolver}
      (fresh : receiver.copy.engine.hasProcessed operation.seqNo.toInt = false)
      (found : receiver.search segments operation = (.ok (some hit), resolver))
      (newer : operation.seqNo ≤ hit.seqNo) :
      Decides segments receiver operation (.superseded operation)
        { receiver with target.resolver := resolver }
  | applied {hit? : Option SeqNoHit} {resolver : Resolver} {engine : Engine}
      (fresh : receiver.copy.engine.hasProcessed operation.seqNo.toInt = false)
      (found : receiver.search segments operation = (.ok hit?, resolver))
      (older : hit?.any (operation.seqNo ≤ ·.seqNo) = false)
      (ran : receiver.copy.engine.apply operation = (.ok (), engine)) :
      Decides segments receiver operation (.applied operation)
        { receiver with target.resolver := resolver, copy.engine := engine }

/-- The decisions about the operations of a batch, in order. -/
inductive Replayed (segments : List Segment) :
    Receiver → List Operation → List Decision → Receiver → Prop where
  | done {receiver : Receiver} : Replayed segments receiver [] [] receiver
  | passed {receiver final : Receiver} {operation : Operation} {operations : List Operation}
      {decisions : List Decision} (seen : operation.seqNo < receiver.target.nextSeqNo)
      (rest : Replayed segments receiver operations decisions final) :
      Replayed segments receiver (operation :: operations) decisions final
  | decided {receiver between final : Receiver} {operation : Operation}
      {operations : List Operation} {decision : Decision} {decisions : List Decision}
      (next : operation.seqNo = receiver.target.nextSeqNo)
      (room : receiver.target.opsRecovered < receiver.target.totalOps)
      (decides : Decides segments receiver operation decision between)
      (rest : Replayed segments between.advance operations decisions final) :
      Replayed segments receiver (operation :: operations) (decision :: decisions) final

end Receiver

namespace Receiving

def Tally.add (tally : Tally) (decision : Decision) : Tally :=
  if decision.isSkip then { tally with skipped := tally.skipped + 1 }
  else { tally with applied := tally.applied + 1 }

theorem start_isHeld (segments : List Segment) (operation : Operation) (receiver : Receiver) :
    (isHeld segments operation).start receiver =
      if receiver.copy.engine.hasProcessed operation.seqNo.toInt then (.ok true, receiver)
      else
        (((receiver.search segments operation).1.mapError Error.ofSegment).map
            fun hit? => hit?.any (operation.seqNo ≤ ·.seqNo),
          { receiver with target.resolver := (receiver.search segments operation).2 }) := by
  unfold isHeld
  rw [start_get_bind]
  split
  · rfl
  · unfold Receiver.search
    cases operation.id? with
    | none => rfl
    | some id =>
        dsimp only
        rw [start_bind_of_ok (start_modifyTarget _ _), start_bind, start_check]
        cases (receiver.target.resolver.seqNo segments (Text.Utf8.encode id)).1 <;> rfl

theorem start_replayOne_passed {operation : Operation} {receiver : Receiver}
    (seen : operation.seqNo < receiver.target.nextSeqNo) (segments : List Segment)
    (tally : Tally) :
    (replayOne segments tally operation).start receiver = (.ok tally, receiver) := by
  unfold replayOne
  rw [start_get_bind]
  dsimp only
  rw [if_pos seen, start_pure]

theorem start_replayOne_gap {operation : Operation} {receiver : Receiver}
    (gap : receiver.target.nextSeqNo < operation.seqNo) (segments : List Segment)
    (tally : Tally) :
    (replayOne segments tally operation).start receiver =
      (.error (.sequenceGap receiver.target.nextSeqNo.toInt operation.seqNo.toInt), receiver) := by
  unfold replayOne
  rw [start_get_bind]
  dsimp only
  rw [if_neg (Int64.lt_asymm gap), if_pos gap]
  rfl

theorem start_replayOne_beyond {operation : Operation} {receiver : Receiver}
    (next : operation.seqNo = receiver.target.nextSeqNo)
    (full : receiver.target.totalOps ≤ receiver.target.opsRecovered) (segments : List Segment)
    (tally : Tally) :
    ∃ error, (replayOne segments tally operation).start receiver = (.error error, receiver) := by
  unfold replayOne
  rw [start_get_bind]
  dsimp only
  rw [next, if_neg Int64.lt_irrefl, if_neg Int64.lt_irrefl, if_pos full]
  exact ⟨_, rfl⟩

/-- The next operation is searched for, and applied if it is not held. -/
theorem start_replayOne_next {operation : Operation} {receiver : Receiver}
    (next : operation.seqNo = receiver.target.nextSeqNo)
    (room : receiver.target.opsRecovered < receiver.target.totalOps) (segments : List Segment)
    (tally : Tally) :
    (replayOne segments tally operation).start receiver =
      match (isHeld segments operation).start receiver with
      | (.error error, receiver) => (.error error, receiver)
      | (.ok true, receiver) => (.ok { tally with skipped := tally.skipped + 1 }, receiver.advance)
      | (.ok false, receiver) =>
          match receiver.copy.engine.apply operation with
          | (.error error, engine) =>
              (.error (.ofEngine error), { receiver with copy.engine := engine })
          | (.ok (), engine) =>
              (.ok { tally with applied := tally.applied + 1 },
                { receiver with copy.engine := engine }.advance) := by
  unfold replayOne
  rw [start_get_bind]
  dsimp only
  rw [if_neg (next ▸ Int64.lt_irrefl), if_neg (next ▸ Int64.lt_irrefl),
    if_neg (Nat.not_le_of_lt room), start_bind]
  cases (isHeld segments operation).start receiver with
  | mk outcome searched =>
      cases outcome with
      | error error => rfl
      | ok held =>
          cases held with
          | true => rfl
          | false =>
              dsimp only
              rw [Bool.not_false, if_pos rfl, start_get_bind]
              cases searched.copy.engine.apply operation with
              | mk outcome engine => cases outcome <;> rfl

/-- The next operation is taken exactly if it can be decided about. -/
theorem replayOne_next_eq_ok_iff {operation : Operation} {receiver final : Receiver}
    (next : operation.seqNo = receiver.target.nextSeqNo)
    (room : receiver.target.opsRecovered < receiver.target.totalOps) {segments : List Segment}
    {tally result : Tally} :
    (replayOne segments tally operation).start receiver = (.ok result, final) ↔
      ∃ decision between, receiver.Decides segments operation decision between ∧
        result = tally.add decision ∧ final = between.advance := by
  rw [start_replayOne_next next room, start_isHeld]
  constructor
  · intro ran
    cases before : receiver.copy.engine.hasProcessed operation.seqNo.toInt with
    | true =>
        rw [if_pos before] at ran
        cases ran
        exact ⟨_, _, .processed before, rfl, rfl⟩
    | false =>
        rw [before, if_neg Bool.false_ne_true] at ran
        cases found : receiver.search segments operation with
        | mk outcome resolver =>
            rw [found] at ran
            cases outcome with
            | error error => cases ran
            | ok hit? =>
                cases newer : hit?.any (operation.seqNo ≤ ·.seqNo) with
                | true =>
                    simp only [Except.mapError, Except.map, newer] at ran
                    cases ran
                    obtain ⟨hit, rfl, newer⟩ := (Option.any_eq_true _ _).mp newer
                    exact ⟨_, _, .superseded before found (of_decide_eq_true newer), rfl, rfl⟩
                | false =>
                    simp only [Except.mapError, Except.map, newer] at ran
                    cases applied : receiver.copy.engine.apply operation with
                    | mk outcome engine =>
                        rw [applied] at ran
                        cases outcome with
                        | error error => cases ran
                        | ok done =>
                            cases ran
                            exact ⟨_, _, .applied before found newer applied, rfl, rfl⟩
  · intro given
    obtain ⟨decision, between, decides, rfl, rfl⟩ := given
    cases decides with
    | processed before => rw [if_pos before]; rfl
    | superseded fresh found newer =>
        rw [if_neg (by rw [fresh]; exact Bool.false_ne_true), found]
        simp only [Except.mapError, Except.map, Option.any_some, newer, decide_true]
        rfl
    | applied fresh found older ran =>
        rw [if_neg (by rw [fresh]; exact Bool.false_ne_true), found]
        simp only [Except.mapError, Except.map, older, ran]
        rfl

/-- A batch is replayed exactly by deciding about its operations in order. -/
theorem foldlM_replayOne_eq_ok_iff {segments : List Segment} {operations : List Operation}
    {tally result : Tally} {receiver final : Receiver} :
    (operations.foldlM (replayOne segments) tally).start receiver = (.ok result, final) ↔
      ∃ decisions, receiver.Replayed segments operations decisions final ∧
        result = decisions.foldl Tally.add tally := by
  induction operations generalizing tally receiver with
  | nil =>
      constructor
      · intro ran
        obtain ⟨same, unchanged⟩ := pure_ok ran
        rw [unchanged, ← same]
        exact ⟨[], .done, rfl⟩
      · intro given
        obtain ⟨decisions, replayed, rfl⟩ := given
        cases replayed
        rfl
  | cons operation operations ih =>
      rw [List.foldlM_cons]
      constructor
      · intro ran
        obtain ⟨counted, between, first, ran⟩ := bind_ok ran
        rcases Std.lt_trichotomy operation.seqNo receiver.target.nextSeqNo with seen | next | gap
        · rw [start_replayOne_passed seen] at first
          cases first
          obtain ⟨decisions, replayed, same⟩ := ih.mp ran
          exact ⟨decisions, .passed seen replayed, same⟩
        · by_cases room : receiver.target.opsRecovered < receiver.target.totalOps
          · obtain ⟨decision, searched, decides, sameTally, sameReceiver⟩ :=
              (replayOne_next_eq_ok_iff next room).mp first
            rw [sameTally, sameReceiver] at ran
            obtain ⟨decisions, replayed, same⟩ := ih.mp ran
            exact ⟨decision :: decisions, .decided next room decides replayed, same⟩
          · obtain ⟨error, refused⟩ :=
              start_replayOne_beyond next (Nat.le_of_not_lt room) segments tally
            rw [refused] at first
            cases first
        · rw [start_replayOne_gap gap] at first
          cases first
      · intro given
        obtain ⟨decisions, replayed, same⟩ := given
        cases replayed with
        | passed seen rest =>
            rw [start_bind_of_ok (start_replayOne_passed seen segments tally)]
            exact ih.mpr ⟨decisions, rest, same⟩
        | decided next room decides rest =>
            rw [start_bind_of_ok
              ((replayOne_next_eq_ok_iff next room).mpr ⟨_, _, decides, rfl, rfl⟩)]
            exact ih.mpr ⟨_, rest, same⟩

end Receiving

namespace Receiver

/-- A decision changes neither the cursor nor the files, and logs nothing. -/
theorem Decides.target {segments : List Segment} {receiver between : Receiver}
    {operation : Operation} {decision : Decision}
    (decides : receiver.Decides segments operation decision between) :
    decision.operation = operation ∧
      between.target = { receiver.target with resolver := between.target.resolver } ∧
      between.copy.store = receiver.copy.store ∧ between.journal = receiver.journal := by
  cases decides <;> exact ⟨rfl, rfl, rfl, rfl⟩

/-- What replaying a batch changes of the target: the cursor and the count move
on by the number of decisions. -/
theorem Replayed.target {segments : List Segment} {receiver final : Receiver}
    {operations : List Operation} {decisions : List Decision}
    (replayed : receiver.Replayed segments operations decisions final) :
    final.target = { receiver.target with
        resolver := final.target.resolver
        nextSeqNo := receiver.target.nextSeqNo + .ofNat decisions.length
        opsRecovered := receiver.target.opsRecovered + decisions.length } ∧
      final.copy.store = receiver.copy.store ∧ final.journal = receiver.journal := by
  induction replayed with
  | done => simp
  | passed seen rest ih => exact ih
  | decided next room decides rest ih =>
      obtain ⟨_, same, store, journal⟩ := decides.target
      obtain ⟨sameLater, storeLater, journalLater⟩ := ih
      refine ⟨?_, storeLater.trans store, journalLater.trans journal⟩
      rw [sameLater, advance, same]
      simp only [List.length_cons, Target.mk.injEq, true_and, and_true]
      refine ⟨?_, by omega⟩
      rw [Nat.add_comm, Int64.ofNat_add, ← Int64.add_assoc]
      rfl

theorem Replayed.nextSeqNo {segments : List Segment} {receiver final : Receiver}
    {operations : List Operation} {decisions : List Decision}
    (replayed : receiver.Replayed segments operations decisions final) :
    final.target.nextSeqNo = receiver.target.nextSeqNo + .ofNat decisions.length := by
  rw [replayed.target.1]

theorem Replayed.opsRecovered {segments : List Segment} {receiver final : Receiver}
    {operations : List Operation} {decisions : List Decision}
    (replayed : receiver.Replayed segments operations decisions final) :
    final.target.opsRecovered = receiver.target.opsRecovered + decisions.length := by
  rw [replayed.target.1]

theorem Replayed.totalOps {segments : List Segment} {receiver final : Receiver}
    {operations : List Operation} {decisions : List Decision}
    (replayed : receiver.Replayed segments operations decisions final) :
    final.target.totalOps = receiver.target.totalOps := by
  rw [replayed.target.1]

theorem Replayed.progress {segments : List Segment} {receiver final : Receiver}
    {operations : List Operation} {decisions : List Decision}
    (replayed : receiver.Replayed segments operations decisions final) :
    final.target.progress = receiver.target.progress := by
  rw [replayed.target.1]

end Receiver

namespace Receiving

theorem foldl_add_eq (decisions : List Decision) (tally : Tally) :
    decisions.foldl Tally.add tally =
      { applied := tally.applied + (decisions.filterMap Decision.applied?).length
        skipped := tally.skipped + decisions.countP Decision.isSkip } := by
  induction decisions generalizing tally with
  | nil => rfl
  | cons decision decisions ih =>
      rw [List.foldl_cons, ih]
      cases decision <;>
        simp [Tally.add, Decision.applied?, List.filterMap_cons, List.countP_cons] <;> omega

theorem checkTotal_eq_ok_iff {target : Target} {totalOps : UInt32} :
    target.checkTotal totalOps = .ok () ↔ totalOps.toNat = target.totalOps := by
  unfold Target.checkTotal
  split <;> simp_all

end Receiving

namespace Receiver

/-- The receiver after a batch: the engine has been refreshed, and the decisions
are counted and logged. -/
def settle (receiver : Receiver) (decisions : List Decision) (engine : Engine) : Receiver :=
  let applied := (decisions.filterMap Decision.applied?).length
  let skipped := decisions.countP Decision.isSkip
  { receiver with
    copy.engine := engine
    target.progress := { receiver.target.progress with
      opsRecovered := receiver.target.progress.opsRecovered + (applied + skipped)
      opsSkipped := receiver.target.progress.opsSkipped + skipped }
    journal := (receiver.journal.count fun metrics =>
      { metrics with
        opsReplayed := metrics.opsReplayed + applied
        opsSkipped := metrics.opsSkipped + skipped }).log <|
      .ofEvent .opsBatch (receiver.target.logFields ++
        [("applied", toString applied), ("skipped", toString skipped),
          ("local_checkpoint", toString receiver.target.localCheckpoint)]) }

end Receiver

namespace Receiving

/-- A batch is acknowledged exactly if its operations could be decided about
one by one and the engine could be refreshed then. -/
theorem replay_eq_ok_iff {operations : List Operation} {totalOps : UInt32} {reply : Reply}
    {receiver final : Receiver} :
    (replay operations totalOps).start receiver = (.ok reply, final) ↔
      receiver.phase = .ops ∧ totalOps.toNat = receiver.target.totalOps ∧
        ∃ decisions replayed engine,
          receiver.Replayed receiver.copy.engine.segments operations decisions replayed ∧
          replayed.copy.engine.refresh = .ok engine ∧
          final = replayed.settle decisions engine ∧
          reply = .opsAck replayed.target.localCheckpoint := by
  unfold replay
  rw [start_get_bind]
  constructor
  · intro ran
    obtain ⟨_, expected, ran⟩ := check_bind_ok ran
    obtain ⟨_, total, ran⟩ := check_bind_ok ran
    obtain ⟨tally, replayed, decided, ran⟩ := bind_ok ran
    obtain ⟨decisions, replaying, counted⟩ := foldlM_replayOne_eq_ok_iff.mp decided
    rw [start_get_bind] at ran
    obtain ⟨engine, refreshed, ran⟩ := check_bind_ok ran
    rw [foldl_add_eq, Nat.zero_add, Nat.zero_add] at counted
    rw [counted] at ran
    cases ran
    exact ⟨Progress.expect_ok expected, checkTotal_eq_ok_iff.mp total, decisions, replayed, engine,
      replaying, mapError_eq_ok_iff.mp refreshed, rfl, rfl⟩
  · intro given
    obtain ⟨inOps, total, decisions, replayed, engine, replaying, refreshed, rfl, rfl⟩ := given
    have expected : receiver.target.progress.expect .ops = .ok () := if_pos inOps
    have decided : (operations.foldlM (replayOne receiver.copy.engine.segments) {}).start
        receiver = (.ok (decisions.foldl Tally.add {}), replayed) :=
      foldlM_replayOne_eq_ok_iff.mpr ⟨decisions, replaying, rfl⟩
    rw [expected, start_bind_of_ok (start_check _ _), checkTotal_eq_ok_iff.mpr total,
      start_bind_of_ok (start_check _ _), start_bind_of_ok decided, start_get_bind, refreshed,
      foldl_add_eq, Nat.zero_add, Nat.zero_add]
    rfl

end Receiving

end ShardSync.Recovery
