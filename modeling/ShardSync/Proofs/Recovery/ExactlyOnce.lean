import Mathlib.Data.Int.ConditionallyCompleteOrder
import Mathlib.Data.Int.Interval
import Mathlib.Order.ConditionallyCompleteLattice.Basic
import ShardSync.Proofs.Recovery.Cursor
import ShardSync.Proofs.Recovery.Reached

/-!
# Every operation is replayed exactly once

Batches may overlap and may be sent again. Whatever they are, as long as they
are acknowledged the target decides about each sequence number once and in
order, and its cursor, its counts, the metrics and the history of the engine
agree on what has been decided.
-/

set_option autoImplicit false

namespace ShardSync

/-- The engine comes from the first to the second by applying the operations in
order, and by refreshing in between. -/
inductive Engine.Driven : Engine → List Operation → Engine → Prop where
  | rest {engine : Engine} : Driven engine [] engine
  | applied {engine between after : Engine} {operation : Operation}
      {operations : List Operation} (ran : engine.apply operation = (.ok (), between))
      (rest : Driven between operations after) : Driven engine (operation :: operations) after
  | refreshed {engine between after : Engine} {operations : List Operation}
      (ran : engine.refresh = .ok between) (rest : Driven between operations after) :
      Driven engine operations after

theorem Engine.Driven.trans {first second third : Engine} {earlier later : List Operation}
    (before : Driven first earlier second) (after : Driven second later third) :
    Driven first (earlier ++ later) third := by
  induction before with
  | rest => exact after
  | applied ran _ ih => exact .applied ran (ih after)
  | refreshed ran _ ih => exact .refreshed ran (ih after)

namespace Recovery

namespace Receiver

/-- The sequence numbers from `start` on among those of the given operations. -/
def accepted (start : Int) (operations : List Operation) : Finset Int :=
  (operations.map (·.seqNo.toInt)).toFinset.filter (start ≤ ·)

theorem mem_accepted_iff {start number : Int} {operations : List Operation} :
    number ∈ accepted start operations ↔
      (∃ operation ∈ operations, operation.seqNo.toInt = number) ∧ start ≤ number := by
  simp [accepted]

/-- So many consecutive numbers, of which `start` is the first. -/
def consecutive (start : Int) (count : Nat) : List Int :=
  (List.range count).map fun index : Nat => start + (index : Int)

theorem consecutive_succ (start : Int) (count : Nat) :
    consecutive start (count + 1) = start :: consecutive (start + 1) count := by
  rw [consecutive, List.range_succ_eq_map, List.map_cons, List.map_map]
  refine List.cons_eq_cons.mpr ⟨Int.add_zero start, List.map_congr_left fun index _ => ?_⟩
  simp only [Function.comp_apply, Nat.succ_eq_add_one]
  omega

theorem consecutive_add (start : Int) (first second : Nat) :
    consecutive start (first + second) =
      consecutive start first ++ consecutive (start + first) second := by
  induction first generalizing start with
  | zero => rw [Nat.zero_add, Nat.cast_zero, Int.add_zero]; rfl
  | succ first ih =>
      rw [Nat.succ_add, consecutive_succ, consecutive_succ, ih, List.cons_append, Int.add_assoc]
      congr 3
      omega

theorem mem_consecutive_iff {start number : Int} {count : Nat} :
    number ∈ consecutive start count ↔ start ≤ number ∧ number < start + count := by
  simp only [consecutive, List.mem_map, List.mem_range]
  constructor
  · intro given
    obtain ⟨index, within, rfl⟩ := given
    omega
  · intro given
    obtain ⟨above, below⟩ := given
    exact ⟨(number - start).toNat, by omega, by omega⟩

section

variable {segments : List Segment} {place : Int} {receiver final : Receiver}
  {operations : List Operation} {decisions : List Decision}

/-- The decisions are about consecutive numbers that begin at the cursor. -/
theorem Sequenced.numbers
    (sequenced : Sequenced segments place receiver operations decisions final) :
    decisions.map Decision.seqNo = consecutive place decisions.length := by
  induction sequenced with
  | done => rfl
  | passed seen rest ih => exact ih
  | decided next decides rest ih =>
      rw [List.map_cons, ih, List.length_cons, consecutive_succ, Decision.seqNo,
        decides.target.1, next]

/-- No operation of the batch is left above the cursor. -/
theorem Sequenced.seqNo_lt
    (sequenced : Sequenced segments place receiver operations decisions final) :
    ∀ operation ∈ operations, operation.seqNo.toInt < place + decisions.length := by
  induction sequenced with
  | done => exact fun operation member => by cases member
  | passed seen rest ih =>
      intro operation member
      rcases List.mem_cons.mp member with rfl | member
      · omega
      · exact ih operation member
  | decided next decides rest ih =>
      intro operation member
      rw [List.length_cons]
      rcases List.mem_cons.mp member with rfl | member
      · omega
      · have := ih operation member
        omega

namespace Replayed

theorem operation_mem (replayed : receiver.Replayed segments operations decisions final) :
    ∀ decision ∈ decisions, decision.operation ∈ operations := by
  induction replayed with
  | done => exact fun decision member => by cases member
  | passed seen rest ih =>
      exact fun decision member => List.mem_cons_of_mem _ (ih decision member)
  | decided next room decides rest ih =>
      intro decision member
      rcases List.mem_cons.mp member with rfl | member
      · rw [decides.target.1]
        exact List.mem_cons_self
      · exact List.mem_cons_of_mem _ (ih decision member)

theorem opsRecovered_le (replayed : receiver.Replayed segments operations decisions final)
    (bounded : receiver.target.opsRecovered ≤ receiver.target.totalOps) :
    final.target.opsRecovered ≤ final.target.totalOps := by
  induction replayed with
  | done => exact bounded
  | passed seen rest ih => exact ih bounded
  | decided next room decides rest ih =>
      refine ih ?_
      rw [advance, decides.target.2.1]
      exact room

theorem driven (replayed : receiver.Replayed segments operations decisions final) :
    receiver.copy.engine.Driven (decisions.filterMap Decision.applied?) final.copy.engine := by
  induction replayed with
  | done => exact .rest
  | passed seen rest ih => exact ih
  | decided next room decides rest ih =>
      cases decides with
      | processed before => exact ih
      | superseded fresh found newer => exact ih
      | applied fresh found older ran => exact .applied ran ih

end Replayed

end

/-- What has been decided about the delivered operations since the replay was
opened, and that cursor, counts, metrics and engine agree on it. -/
structure Replays (opened : Receiver) (delivered : List Operation) (decisions : List Decision)
    (current : Receiver) : Prop where
  phase : current.phase = .ops
  numbers : decisions.map Decision.seqNo =
    consecutive opened.target.nextSeqNo.toInt decisions.length
  accepted : accepted opened.target.nextSeqNo.toInt delivered =
    Finset.Ico opened.target.nextSeqNo.toInt (opened.target.nextSeqNo.toInt + decisions.length)
  operation_mem : ∀ decision ∈ decisions, decision.operation ∈ delivered
  driven : opened.copy.engine.Driven (decisions.filterMap Decision.applied?) current.copy.engine
  stands : current.target.StandsAt (opened.target.nextSeqNo.toInt + decisions.length)
  totalOps : current.target.totalOps = opened.target.totalOps
  count : current.target.opsRecovered = opened.target.opsRecovered + decisions.length
  bound : current.target.opsRecovered ≤ current.target.totalOps
  opsRecovered : current.target.progress.opsRecovered =
    opened.target.progress.opsRecovered + decisions.length
  opsSkipped : current.target.progress.opsSkipped =
    opened.target.progress.opsSkipped + decisions.countP Decision.isSkip
  metrics : current.journal.metrics = { opened.journal.metrics with
    opsReplayed := opened.journal.metrics.opsReplayed +
      (decisions.filterMap Decision.applied?).length
    opsSkipped := opened.journal.metrics.opsSkipped + decisions.countP Decision.isSkip }

theorem replays_opened {opened : Receiver} (inOps : opened.phase = .ops)
    (bound : opened.target.opsRecovered ≤ opened.target.totalOps) :
    opened.Replays [] [] opened where
  phase := inOps
  numbers := rfl
  accepted := by simp [Receiver.accepted]
  operation_mem decision member := by cases member
  driven := .rest
  stands := (Int.add_zero _).symm ▸ opened.target.standsAt_toInt
  totalOps := rfl
  count := rfl
  bound := bound
  opsRecovered := rfl
  opsSkipped := rfl
  metrics := rfl

/-- After a run of decisions exactly the numbers below the cursor are accepted. -/
theorem Sequenced.accepted {segments : List Segment} {place : Int} {receiver final : Receiver}
    {operations delivered : List Operation} {decisions : List Decision} {start : Int}
    (sequenced : Sequenced segments place receiver operations decisions final)
    (listed : ∀ decision ∈ decisions, decision.operation ∈ operations)
    (before : accepted start delivered = Finset.Ico start place) :
    Receiver.accepted start (delivered ++ operations) =
      Finset.Ico start (place + decisions.length) := by
  ext number
  rw [mem_accepted_iff, Finset.mem_Ico]
  constructor
  · intro given
    obtain ⟨⟨operation, member, same⟩, above⟩ := given
    refine ⟨above, ?_⟩
    rcases List.mem_append.mp member with earlier | later
    · have known : number ∈ Receiver.accepted start delivered :=
        mem_accepted_iff.mpr ⟨⟨operation, earlier, same⟩, above⟩
      rw [before, Finset.mem_Ico] at known
      omega
    · rw [← same]
      exact sequenced.seqNo_lt operation later
  · intro given
    obtain ⟨above, below⟩ := given
    refine ⟨?_, above⟩
    by_cases earlier : number < place
    · have known : number ∈ Receiver.accepted start delivered := by
        rw [before, Finset.mem_Ico]
        exact ⟨above, earlier⟩
      obtain ⟨⟨operation, member, same⟩, _⟩ := mem_accepted_iff.mp known
      exact ⟨operation, List.mem_append_left _ member, same⟩
    · have decided : number ∈ decisions.map Decision.seqNo := by
        rw [sequenced.numbers, mem_consecutive_iff]
        omega
      obtain ⟨decision, member, same⟩ := List.mem_map.mp decided
      exact ⟨decision.operation, List.mem_append_right _ (listed decision member), same⟩

/-- What is left of the sequence numbers does not change while operations are decided
about. -/
theorem Replays.lasts {opened current : Receiver} {delivered operations : List Operation}
    {decisions : List Decision} (replays : opened.Replays delivered decisions current)
    (lasts : opened.target.Lasts opened.target.nextSeqNo.toInt operations) :
    current.target.Lasts (opened.target.nextSeqNo.toInt + decisions.length) operations := by
  refine lasts.imp_left fun lasting => ?_
  have count := replays.count
  have bound := replays.bound
  have total := replays.totalOps
  omega

/-- The decisions about a batch that is acknowledged are added to those before. -/
theorem Replays.settle {opened current replayed : Receiver} {delivered operations : List Operation}
    {decisions later : List Decision} {engine : Engine}
    (replays : opened.Replays delivered decisions current)
    (replaying :
      current.Replayed current.copy.engine.segments operations later replayed)
    (refreshed : replayed.copy.engine.refresh = .ok engine)
    (lasts : opened.target.Lasts opened.target.nextSeqNo.toInt operations) :
    opened.Replays (delivered ++ operations) (decisions ++ later)
      (replayed.settle later engine) := by
  obtain ⟨_, _, journal⟩ := replaying.target
  obtain ⟨sequenced, standing⟩ := replaying.sequenced replays.stands (replays.lasts lasts)
  have further : opened.target.nextSeqNo.toInt + decisions.length + later.length =
      opened.target.nextSeqNo.toInt + (decisions ++ later).length := by
    rw [List.length_append]
    omega
  constructor
  case phase => exact (congrArg (·.phase) replaying.progress).trans replays.phase
  case numbers =>
    rw [List.map_append, replays.numbers, sequenced.numbers, List.length_append, consecutive_add]
  case accepted =>
    rw [← further]
    exact sequenced.accepted replaying.operation_mem replays.accepted
  case operation_mem =>
    intro decision member
    rcases List.mem_append.mp member with earlier | new
    · exact List.mem_append_left _ (replays.operation_mem decision earlier)
    · exact List.mem_append_right _ (replaying.operation_mem decision new)
  case driven =>
    have refreshing : replayed.copy.engine.Driven [] engine := .refreshed refreshed .rest
    have further := replaying.driven.trans refreshing
    rw [List.append_nil] at further
    rw [List.filterMap_append]
    exact replays.driven.trans further
  case stands =>
    rw [← further]
    exact ⟨standing.nextSeqNo, standing.least, standing.most⟩
  case totalOps => exact replaying.totalOps.trans replays.totalOps
  case count =>
    change replayed.target.opsRecovered = _
    rw [replaying.opsRecovered, replays.count, List.length_append, Nat.add_assoc]
  case bound => exact replaying.opsRecovered_le replays.bound
  case opsRecovered =>
    change replayed.target.progress.opsRecovered + _ = _
    rw [replaying.progress, replays.opsRecovered, Decision.length_applied_add_countP,
      List.length_append, Nat.add_assoc]
  case opsSkipped =>
    change replayed.target.progress.opsSkipped + _ = _
    rw [replaying.progress, replays.opsSkipped, List.countP_append, Nat.add_assoc]
  case metrics =>
    rw [Receiver.settle, journal, Log.Journal.metrics_log, Log.Journal.count, replays.metrics,
      List.filterMap_append, List.length_append, List.countP_append, Nat.add_assoc,
      Nat.add_assoc]

theorem Replays.replay {opened current final : Receiver} {delivered operations : List Operation}
    {decisions : List Decision} {totalOps : UInt32} {reply : Reply}
    (replays : opened.Replays delivered decisions current)
    (ran : (Receiving.replay operations totalOps).start current = (.ok reply, final))
    (lasts : opened.target.Lasts opened.target.nextSeqNo.toInt operations) :
    ∃ later, opened.Replays (delivered ++ operations) (decisions ++ later) final ∧
      reply = .opsAck final.target.localCheckpoint := by
  obtain ⟨_, total, later, replayed, engine, replaying, refreshed, rfl, rfl⟩ :=
    Receiving.replay_eq_ok_iff.mp ran
  exact ⟨later, replays.settle replaying refreshed lasts, rfl⟩

end Receiver

structure Batch where
  number : Int64
  recovery : Int64
  shard : ShardId
  operations : List Operation
  totalOps : UInt32
deriving Repr, DecidableEq

namespace Batch

def request (batch : Batch) : Request :=
  .step batch.number batch.recovery batch.shard (.replay batch.operations batch.totalOps)

def delivered (batches : List Batch) : List Operation := batches.flatMap (·.operations)

end Batch

namespace Receiver

theorem Replays.card_accepted {opened current : Receiver} {delivered : List Operation}
    {decisions : List Decision} (replays : opened.Replays delivered decisions current) :
    (Receiver.accepted opened.target.nextSeqNo.toInt delivered).card = decisions.length := by
  rw [replays.accepted, Int.card_Ico]
  omega

/-- A batch is acknowledged with the new cursor, or it is answered by a failure
and the recovery has failed. -/
theorem Replays.handle {opened current : Receiver} {delivered : List Operation}
    {decisions : List Decision} (replays : opened.Replays delivered decisions current)
    {batch : Batch} (lasts : opened.target.Lasts opened.target.nextSeqNo.toInt batch.operations) :
    (∃ later after,
      current.handle batch.request = (.opsAck after.target.localCheckpoint, after) ∧
      opened.Replays (delivered ++ batch.operations) (decisions ++ later) after) ∨
    ∃ error after, current.handle batch.request = (.ofError error, after) ∧
      after.phase = .failed := by
  have going := going_of_ops replays.phase
  cases ran : (Receiving.replay batch.operations batch.totalOps).start current with
  | mk outcome after =>
      have performed : (Command.replay batch.operations batch.totalOps).perform.start current =
          (outcome, after) := ran
      cases outcome with
      | ok reply =>
          obtain ⟨later, further, rfl⟩ := replays.replay ran lasts
          exact .inl ⟨later, after, handle_of_ok going performed .., further⟩
      | error error =>
          exact .inr ⟨_, _, handle_of_error going performed .., phase_fail going performed _⟩

theorem Replays.handleAll {opened current final : Receiver} {delivered : List Operation}
    {decisions : List Decision} {batches : List Batch} {checkpoints : List Int64}
    (replays : opened.Replays delivered decisions current)
    (acknowledged : current.handleAll (batches.map Batch.request) =
      (checkpoints.map Reply.opsAck, final))
    (lasts : opened.target.Lasts opened.target.nextSeqNo.toInt (Batch.delivered batches)) :
    (∃ later, opened.Replays (delivered ++ Batch.delivered batches) (decisions ++ later) final) ∧
      checkpoints.length = batches.length ∧
      ∀ (index : Nat) (checkpoint : Int64), checkpoints[index]? = some checkpoint →
        checkpoint = .ofInt (opened.target.nextSeqNo.toInt - 1 + (Receiver.accepted
          opened.target.nextSeqNo.toInt
          (delivered ++ Batch.delivered (batches.take (index + 1)))).card) := by
  induction batches generalizing current delivered decisions checkpoints with
  | nil =>
      cases checkpoints with
      | nil =>
          cases acknowledged
          refine ⟨⟨[], ?_⟩, rfl, fun index checkpoint found => by cases found⟩
          rw [Batch.delivered, List.flatMap_nil, List.append_nil, List.append_nil]
          exact replays
      | cons checkpoint checkpoints => cases acknowledged
  | cons batch batches ih =>
      cases checkpoints with
      | nil => cases acknowledged
      | cons checkpoint checkpoints =>
          simp only [List.map_cons, Receiver.handleAll, Prod.mk.injEq, List.cons.injEq]
            at acknowledged
          obtain ⟨⟨first, others⟩, last⟩ := acknowledged
          rcases replays.handle (lasts.mono (List.subset_append_left ..)) with
            ⟨later, after, handled, further⟩ | failed
          · rw [handled] at first others last
            obtain ⟨⟨latest, ended⟩, counted, numbered⟩ := ih further (Prod.ext others last)
              (lasts.mono (List.subset_append_right ..))
            have split (batches : List Batch) :
                delivered ++ batch.operations ++ Batch.delivered batches =
                  delivered ++ Batch.delivered (batch :: batches) := by
              rw [Batch.delivered, Batch.delivered, List.flatMap_cons, List.append_assoc]
            refine ⟨⟨later ++ latest, ?_⟩, congrArg (· + 1) counted, fun index number found => ?_⟩
            · rw [← List.append_assoc, ← split]
              exact ended
            · rw [List.take_succ_cons, ← split]
              cases index with
              | zero =>
                  cases found
                  cases first
                  have alone : delivered ++ batch.operations ++ Batch.delivered (batches.take 0) =
                      delivered ++ batch.operations := List.append_nil _
                  rw [alone, further.card_accepted, further.stands.localCheckpoint]
                  congr 1
                  omega
              | succ index => exact numbered index number found
          · obtain ⟨error, after, handled, _⟩ := failed
            rw [handled] at first
            cases first

theorem accepted_mono {start : Int} {fewer more : List Operation} (subset : fewer ⊆ more) :
    Receiver.accepted start fewer ⊆ Receiver.accepted start more := by
  intro number member
  obtain ⟨⟨operation, listed, same⟩, above⟩ := mem_accepted_iff.mp member
  exact mem_accepted_iff.mpr ⟨⟨operation, subset listed, same⟩, above⟩

theorem card_accepted_le (start : Int) (operations : List Operation) :
    (Receiver.accepted start operations).card ≤ (2 ^ 63 - start).toNat := by
  have within : Receiver.accepted start operations ⊆ Finset.Ico start (2 ^ 63) := by
    intro number member
    obtain ⟨⟨operation, _, same⟩, above⟩ := mem_accepted_iff.mp member
    rw [Finset.mem_Ico]
    refine ⟨above, ?_⟩
    rw [← same]
    exact operation.seqNo.toInt_lt
  rw [← Int.card_Ico]
  exact Finset.card_le_card within

theorem le_add_card_accepted {start place : Int} {operations : List Operation}
    (known : Finset.Ico start place ⊆ Receiver.accepted start operations) :
    place ≤ start + (Receiver.accepted start operations).card := by
  have counted := Finset.card_le_card known
  rw [Int.card_Ico] at counted
  omega

/-- An operation of a batch that is taken leaves no gap to those before it, even if the
cursor has run over. -/
theorem Replayed.seqNo_le {segments : List Segment} {start place : Int}
    {receiver final : Receiver} {delivered before rest : List Operation} {operation : Operation}
    {decisions : List Decision}
    (replayed : receiver.Replayed segments (before ++ operation :: rest) decisions final)
    (stands : receiver.target.StandsAt place)
    (known : Finset.Ico start place ⊆ Receiver.accepted start delivered) :
    operation.seqNo.toInt ≤ start + (Receiver.accepted start (delivered ++ before)).card := by
  induction before generalizing receiver place delivered decisions with
  | nil =>
      have counted := le_add_card_accepted known
      have within : operation.seqNo.toInt ≤ place := by
        cases replayed with
        | passed seen _ => exact stands.le_of_admitted (.inl seen)
        | decided next _ _ _ => exact stands.le_of_admitted (.inr next)
      rw [List.append_nil]
      omega
  | cons first before ih =>
      have more := known.trans (accepted_mono (List.subset_append_left delivered [first]))
      rw [List.append_cons]
      cases replayed with
      | passed _ following => exact ih following stands more
      | decided next _ decides following =>
          rcases stands.eq_of_next next with same | ⟨beyond, _⟩
          · have within : place < 2 ^ 63 := same ▸ first.seqNo.toInt_lt
            refine ih following (standsAt_advance (decides.standsAt stands) within) ?_
            intro number member
            rw [Finset.mem_Ico] at member
            by_cases earlier : number < place
            · exact more (Finset.mem_Ico.mpr ⟨member.1, earlier⟩)
            · exact mem_accepted_iff.mpr
                ⟨⟨first, List.mem_append_right _ List.mem_cons_self, by omega⟩, member.1⟩
          · have all := le_add_card_accepted
              (more.trans (accepted_mono (List.subset_append_left _ before)))
            have last := operation.seqNo.toInt_lt
            omega

/-- A batch that leaves a gap, or delivers more operations than were announced,
fails the recovery. -/
theorem Replays.refuses {opened current : Receiver} {delivered : List Operation}
    {decisions : List Decision} (replays : opened.Replays delivered decisions current)
    {batch : Batch}
    (unacceptable :
      (∃ before operation after, batch.operations = before ++ operation :: after ∧
        opened.target.nextSeqNo.toInt +
            (Receiver.accepted opened.target.nextSeqNo.toInt (delivered ++ before)).card <
          operation.seqNo.toInt) ∨
      opened.target.totalOps < opened.target.opsRecovered +
        (Receiver.accepted opened.target.nextSeqNo.toInt (delivered ++ batch.operations)).card) :
    ∃ error after, current.handle batch.request = (.ofError error, after) ∧
      after.phase = .failed := by
  have going := going_of_ops replays.phase
  cases ran : (Receiving.replay batch.operations batch.totalOps).start current with
  | mk outcome after =>
      have performed : (Command.replay batch.operations batch.totalOps).perform.start current =
          (outcome, after) := ran
      cases outcome with
      | error error =>
          exact ⟨_, _, handle_of_error going performed .., phase_fail going performed _⟩
      | ok reply =>
          exfalso
          rcases unacceptable with ⟨before, operation, rest, listed, gap⟩ | exceeding
          · obtain ⟨_, _, later, replayed, engine, replaying, _⟩ :=
              Receiving.replay_eq_ok_iff.mp ran
            rw [listed] at replaying
            have within := replaying.seqNo_le replays.stands replays.accepted.superset
            omega
          · have bounded := card_accepted_le opened.target.nextSeqNo.toInt
              (delivered ++ batch.operations)
            have inside := opened.target.nextSeqNo.toInt_lt
            obtain ⟨later, further, _⟩ := replays.replay ran (.inl (by omega))
            rw [further.card_accepted, ← further.count, ← further.totalOps] at exceeding
            exact absurd further.bound (Nat.not_le_of_lt exceeding)

theorem pairwise_consecutive (start : Int) (count : Nat) :
    (consecutive start count).Pairwise (· < ·) := by
  refine List.Pairwise.map _ (fun first second less => ?_) List.pairwise_lt_range
  omega

/-- Two batches, of which the second begins with the operation of the first. -/
def overlapping : List Batch :=
  let first : Operation := { seqNo := 0, primaryTerm := 1, action := .index "a" 1 [] }
  let second : Operation := { seqNo := 1, primaryTerm := 1, action := .delete "a" 2 }
  [{ number := 3, recovery := 1, shard := default, operations := [first], totalOps := 2 },
    { number := 4, recovery := 1, shard := default, operations := [first, second], totalOps := 2 }]

end Receiver

end Recovery

end ShardSync
