import ShardSync.Proofs.Engine.Processed
import ShardSync.Proofs.Recovery.ExactlyOnce

/-!
# The checkpoint of a recovery

A target reports as its checkpoint the last number it has decided about. The
engine has processed all numbers up to there only if the staged segments hold
those before the first replayed one, and no operation was skipped for a newer
document.
-/

set_option autoImplicit false

namespace ShardSync.Recovery

namespace Receiver

variable {segments : List Segment} {receiver between final : Receiver} {operation : Operation}
  {operations : List Operation} {decision : Decision} {decisions : List Decision}

theorem Decides.sound (decides : receiver.Decides segments operation decision between)
    (sound : receiver.copy.engine.tracker.Sound) : between.copy.engine.tracker.Sound := by
  cases decides with
  | processed before => exact sound
  | superseded fresh found newer => exact sound
  | applied fresh found older ran => exact (Engine.apply_processed sound ran).1

theorem Replayed.sound (replayed : receiver.Replayed segments operations decisions final)
    (sound : receiver.copy.engine.tracker.Sound) : final.copy.engine.tracker.Sound := by
  induction replayed with
  | done => exact sound
  | passed seen rest ih => exact ih sound
  | decided next room decides rest ih => exact ih (decides.sound sound)

end Receiver

/-- What has happened since the files of a recovery were complete. -/
structure Episode where
  startSeqNo : Int := 0
  staged : List Segment := []
  decisions : List Decision := []

namespace Episode

/-- An operation has been skipped for a newer document. -/
def HasSuperseded (episode : Episode) : Prop :=
  ∃ operation, .superseded operation ∈ episode.decisions

/-- The staged segments hold all numbers before the first replayed one. -/
def IsFilled (episode : Episode) : Prop :=
  ∀ number, 0 ≤ number → number < episode.startSeqNo → number ∈ Engine.numbers episode.staged

/-- What the decisions of an episode and the engine say about each other. -/
structure Records (episode : Episode) (engine : Engine) : Prop where
  numbers : episode.decisions.map Decision.seqNo =
    Receiver.consecutive episode.startSeqNo episode.decisions.length
  processed : ∀ number, engine.hasProcessed number = true ↔
    0 ≤ number ∧ (number ∈ Engine.numbers episode.staged ∨
      ∃ operation, .applied operation ∈ episode.decisions ∧ operation.seqNo.toInt = number)
  held : ∀ operation, .processed operation ∈ episode.decisions →
    operation.seqNo.toInt ∈ Engine.numbers episode.staged
  missing : ∀ operation, .superseded operation ∈ episode.decisions →
    0 ≤ operation.seqNo.toInt → operation.seqNo.toInt ∉ Engine.numbers episode.staged

/-- What an episode says about the cursor and the counts of the target, and about its
engine unless more operations are announced than there are sequence numbers left. -/
structure Describes (episode : Episode) (target : Target) (engine : Engine) : Prop where
  sound : engine.tracker.Sound
  least : -2 ^ 63 ≤ episode.startSeqNo
  most : episode.startSeqNo < 2 ^ 63
  total : target.totalOps < 2 ^ 32
  bound : target.opsRecovered ≤ target.totalOps
  counted : target.opsRecovered = episode.decisions.length
  nextSeqNo : target.nextSeqNo = .ofInt (episode.startSeqNo + target.opsRecovered)
  records : episode.startSeqNo + target.totalOps ≤ 2 ^ 63 → episode.Records engine

def decide (episode : Episode) (decision : Decision) : Episode :=
  { episode with decisions := episode.decisions ++ [decision] }

theorem mem_decide_iff {episode : Episode} {decision other : Decision} :
    other ∈ (episode.decide decision).decisions ↔ other ∈ episode.decisions ∨ other = decision := by
  rw [decide, List.mem_append, List.mem_singleton]

/-- What holds of the operations decided about in one way, and of a new one if it is. -/
theorem forall_decide {episode : Episode} {decision : Decision} {about : Operation → Decision}
    {holds : Operation → Prop}
    (before : ∀ operation, about operation ∈ episode.decisions → holds operation)
    (new : ∀ operation, about operation = decision → holds operation) :
    ∀ operation, about operation ∈ (episode.decide decision).decisions → holds operation := by
  intro operation member
  rcases mem_decide_iff.mp member with earlier | same
  · exact before operation earlier
  · exact new operation same

theorem Records.seqNo_lt {episode : Episode} {engine : Engine} (records : episode.Records engine) :
    ∀ decision ∈ episode.decisions, episode.startSeqNo ≤ decision.seqNo ∧
      decision.seqNo < episode.startSeqNo + episode.decisions.length := by
  intro decision member
  have listed : decision.seqNo ∈ episode.decisions.map Decision.seqNo :=
    List.mem_map_of_mem member
  rw [records.numbers, Receiver.mem_consecutive_iff] at listed
  exact listed

theorem Records.decides {episode : Episode} {segments : List Segment}
    {receiver between : Receiver} {operation : Operation} {decision : Decision}
    (records : episode.Records receiver.copy.engine) (sound : receiver.copy.engine.tracker.Sound)
    (next : operation.seqNo.toInt = episode.startSeqNo + episode.decisions.length)
    (decided : receiver.Decides segments operation decision between) :
    (episode.decide decision).Records between.copy.engine := by
  obtain ⟨about, _⟩ := decided.target
  have numbers : (episode.decide decision).decisions.map Decision.seqNo = Receiver.consecutive
      (episode.decide decision).startSeqNo (episode.decide decision).decisions.length := by
    rw [decide, List.map_append, records.numbers, List.length_append, Receiver.consecutive_add,
      ← next, ← about]
    dsimp only [List.length_singleton, List.map_singleton]
    rw [Receiver.consecutive_succ]
    rfl
  have unheard : ∀ earlier, .applied earlier ∈ episode.decisions →
      earlier.seqNo.toInt ≠ operation.seqNo.toInt := by
    intro earlier member same
    have before : earlier.seqNo.toInt < episode.startSeqNo + episode.decisions.length :=
      (records.seqNo_lt _ member).2
    omega
  cases decided with
  | processed before =>
      obtain ⟨positive, staged | ⟨earlier, member, same⟩⟩ := (records.processed _).mp before
      · refine ⟨numbers, fun number => ?_, forall_decide records.held fun other same => ?_,
          forall_decide records.missing nofun⟩
        · simp only [mem_decide_iff, reduceCtorEq, or_false]
          exact records.processed number
        · cases same
          exact staged
      · exact absurd same (unheard earlier member)
  | superseded fresh found newer =>
      refine ⟨numbers, fun number => ?_, forall_decide records.held nofun,
        forall_decide records.missing fun other same => ?_⟩
      · simp only [mem_decide_iff, reduceCtorEq, or_false]
        exact records.processed number
      · cases same
        intro positive staged
        rw [(records.processed _).mpr ⟨positive, .inl staged⟩] at fresh
        cases fresh
  | applied fresh found older ran =>
      obtain ⟨_, processed⟩ := Engine.apply_processed sound ran
      refine ⟨numbers, fun number => ?_, forall_decide records.held nofun,
        forall_decide records.missing nofun⟩
      simp only [mem_decide_iff, Decision.applied.injEq]
      rw [processed, records.processed]
      constructor
      · intro given
        rcases given with ⟨positive, staged | ⟨earlier, member, same⟩⟩ | ⟨rfl, positive⟩
        · exact ⟨positive, .inl staged⟩
        · exact ⟨positive, .inr ⟨earlier, .inl member, same⟩⟩
        · exact ⟨positive, .inr ⟨operation, .inr rfl, rfl⟩⟩
      · intro given
        obtain ⟨positive, staged | ⟨other, earlier | rfl, same⟩⟩ := given
        · exact .inl ⟨positive, .inl staged⟩
        · exact .inl ⟨positive, .inr ⟨other, earlier, same⟩⟩
        · exact .inr ⟨same.symm, positive⟩

theorem Records.sequenced {segments : List Segment} {place : Int} {receiver final : Receiver}
    {operations : List Operation} {decisions : List Decision}
    (sequenced : Receiver.Sequenced segments place receiver operations decisions final)
    {episode : Episode} (records : episode.Records receiver.copy.engine)
    (sound : receiver.copy.engine.tracker.Sound)
    (cursor : place = episode.startSeqNo + episode.decisions.length) :
    Records { episode with decisions := episode.decisions ++ decisions } final.copy.engine := by
  induction sequenced generalizing episode with
  | done =>
      rw [List.append_nil]
      exact records
  | passed seen rest ih => exact ih records sound cursor
  | @decided _ _ _ _ _ _ decision decisions next decides rest ih =>
      have later : episode.startSeqNo + episode.decisions.length + 1 =
          (episode.decide decision).startSeqNo +
            (episode.decide decision).decisions.length := by
        rw [decide, List.length_append, List.length_singleton]
        dsimp only
        omega
      have decided := records.decides sound (next.trans cursor) decides
      have further := ih decided (decides.sound sound) (cursor ▸ later)
      rw [decide, List.append_assoc] at further
      exact further

theorem Describes.replay {episode : Episode} {receiver replayed final : Receiver}
    {operations : List Operation} {decisions : List Decision} {engine : Engine}
    (describes : episode.Describes receiver.target receiver.copy.engine)
    (replaying : receiver.Replayed receiver.copy.engine.segments operations decisions replayed)
    (refreshed : replayed.copy.engine.refresh = .ok engine)
    (settled : final = replayed.settle decisions engine) :
    Describes { episode with decisions := episode.decisions ++ decisions }
      final.target final.copy.engine := by
  have same := Engine.tracker_refresh refreshed
  have total := replaying.totalOps
  have count := replaying.opsRecovered
  have bound := replaying.opsRecovered_le describes.bound
  have counted := describes.counted
  rw [settled]
  constructor
  case sound =>
    change engine.tracker.Sound
    rw [same]
    exact replaying.sound describes.sound
  case least => exact describes.least
  case most => exact describes.most
  case total => exact total.symm ▸ describes.total
  case bound => exact bound
  case counted =>
    change replayed.target.opsRecovered = _
    rw [count, counted, List.length_append]
  case nextSeqNo =>
    change replayed.target.nextSeqNo = .ofInt (_ + replayed.target.opsRecovered)
    rw [replaying.nextSeqNo, describes.nextSeqNo, count, ← Int64.ofInt_eq_ofNat,
      ← Int64.ofInt_add, Int.natCast_add, Int.add_assoc]
  case records =>
    intro lasting
    change episode.startSeqNo + replayed.target.totalOps ≤ 2 ^ 63 at lasting
    rw [total] at bound lasting
    have least := describes.least
    have stands : receiver.target.StandsAt (episode.startSeqNo + receiver.target.opsRecovered) :=
      ⟨describes.nextSeqNo, by omega, by omega⟩
    obtain ⟨sequenced, _⟩ := replaying.sequenced stands (.inl (by omega))
    have records := (describes.records lasting).sequenced sequenced describes.sound
      (by rw [counted])
    refine ⟨records.numbers, fun number => ?_, records.held, records.missing⟩
    change engine.tracker.hasProcessed number = true ↔ _
    rw [same]
    exact records.processed number

theorem describes_filesComplete {startSeqNo : Int64} {totalOps : UInt32} {reply : Reply}
    {receiver final : Receiver} {segments : List Segment} (settled : receiver.target.Sound)
    (ran : (Receiving.filesComplete startSeqNo totalOps).start receiver = (.ok reply, final))
    (staged : receiver.staged = .ok segments) :
    Describes { startSeqNo := startSeqNo.toInt, staged := segments } final.target
      final.copy.engine := by
  obtain ⟨inFiles, _, _, total, read, engine, found, prepared, copy, target, _⟩ :=
    Receiving.filesComplete_ok ran
  rw [staged] at found
  cases found
  obtain ⟨sound, processed⟩ := Engine.prepare_processed prepared
  obtain ⟨none, _⟩ := settled.uncounted (.inr inFiles)
  rw [copy, target]
  constructor
  case sound => exact sound
  case least => exact startSeqNo.le_toInt
  case most => exact startSeqNo.toInt_lt
  case total => exact total ▸ totalOps.toNat_lt
  case bound => exact none.symm ▸ Nat.zero_le _
  case counted => exact none
  case nextSeqNo =>
    dsimp only
    rw [none, Int.natCast_zero, Int.add_zero, Int64.ofInt_toInt]
  case records =>
    refine fun _ => ⟨rfl, fun number => ?_, fun operation member => ?_, fun operation member => ?_⟩
    · rw [processed, Engine.mem_numbers_congr (byGeneration_perm segments), and_comm]
      simp
    · cases member
    · cases member

/-- All numbers before the end of an episode have been processed exactly if the staged
segments hold those before the first replayed one and no operation was skipped for a newer
document. -/
theorem Records.all_processed_iff {episode : Episode} {engine : Engine}
    (records : episode.Records engine) (fromZero : 0 ≤ episode.startSeqNo) :
    (∀ number, 0 ≤ number → number < episode.startSeqNo + episode.decisions.length →
        engine.hasProcessed number = true) ↔
      episode.IsFilled ∧ ¬ episode.HasSuperseded := by
  -- no two decisions are about the same number
  have unique {first second : Decision} (firstMember : first ∈ episode.decisions)
      (secondMember : second ∈ episode.decisions) (same : first.seqNo = second.seqNo) :
      first = second := by
    have distinct : (episode.decisions.map Decision.seqNo).Nodup := by
      rw [records.numbers]
      exact (Receiver.pairwise_consecutive _ _).imp Int.ne_of_lt
    exact List.inj_on_of_nodup_map distinct firstMember secondMember same
  constructor
  · intro all
    refine ⟨fun number positive before => ?_, ?_⟩
    · have known := all number positive (by omega)
      obtain ⟨_, staged | ⟨operation, member, same⟩⟩ := (records.processed number).mp known
      · exact staged
      · have later : episode.startSeqNo ≤ operation.seqNo.toInt :=
          (records.seqNo_lt _ member).1
        omega
    · intro given
      obtain ⟨operation, member⟩ := given
      have between : episode.startSeqNo ≤ operation.seqNo.toInt ∧
          operation.seqNo.toInt < episode.startSeqNo + episode.decisions.length :=
        records.seqNo_lt _ member
      have known := all operation.seqNo.toInt (by omega) between.2
      obtain ⟨positive, staged | ⟨other, applied, same⟩⟩ := (records.processed _).mp known
      · exact records.missing operation member positive staged
      · cases unique applied member same
  · rintro ⟨filled, unskipped⟩ number positive below
    refine (records.processed number).mpr ⟨positive, ?_⟩
    by_cases before : number < episode.startSeqNo
    · exact .inl (filled number positive before)
    · have decided : number ∈ episode.decisions.map Decision.seqNo := by
        rw [records.numbers, Receiver.mem_consecutive_iff]
        exact ⟨Int.not_lt.mp before, below⟩
      obtain ⟨decision, member, same⟩ := List.mem_map.mp decided
      cases decision with
      | applied operation => exact .inr ⟨operation, member, same⟩
      | processed operation =>
          rw [← same]
          exact .inl (records.held operation member)
      | superseded operation => exact absurd ⟨operation, member⟩ unskipped

/-- All numbers up to the reported checkpoint of a complete replay have been processed
exactly if this holds of the episode, or the checkpoint is less than the one before the
replay because the cursor has run over. -/
theorem Describes.all_processed_iff {episode : Episode} {target : Target} {engine : Engine}
    (describes : episode.Describes target engine) (fromZero : 0 ≤ episode.startSeqNo)
    (complete : target.opsRecovered = target.totalOps) :
    (∀ number, 0 ≤ number → number ≤ target.localCheckpoint.toInt →
        engine.hasProcessed number = true) ↔
      target.localCheckpoint.toInt < episode.startSeqNo - 1 ∨
        episode.IsFilled ∧ ¬ episode.HasSuperseded := by
  have most := describes.most
  have total := describes.total
  have counted := describes.counted
  rcases Int.lt_or_le (2 ^ 63) (episode.startSeqNo + target.totalOps) with beyond | lasting
  · have around := Target.toInt_localCheckpoint_of_beyond describes.nextSeqNo (by omega) (by omega)
    refine iff_of_true (fun number positive below => by omega) (.inl (by omega))
  · have stands : target.StandsAt (episode.startSeqNo + target.opsRecovered) :=
      ⟨describes.nextSeqNo, by omega, by omega⟩
    have last := stands.toInt_localCheckpoint (by omega)
    rw [or_iff_right (by omega), ← (describes.records lasting).all_processed_iff fromZero, last,
      counted]
    exact forall_congr' fun number => imp_congr_right fun _ => imp_congr_left (by omega)

end Episode

end ShardSync.Recovery
