import ShardSync.Proofs.Recovery.Checkpoint
import ShardSync.Proofs.Recovery.Places

/-!
# What an acknowledged checkpoint covers

A run of a service is a list of events. Beside the service go the episodes of
its recoveries: what was staged when the files were complete, and what has been
decided since. An acknowledgement of a finalized recovery speaks of all numbers
up to its checkpoint. The engine has processed them all exactly if the staged
segments held those before the start, and nothing was skipped for a newer
document.
-/

set_option autoImplicit false

namespace ShardSync.Recovery

namespace Receiver

/-- The decisions about the operations of a batch, up to the first one that
cannot be decided about. -/
def decisions (segments : List Segment) : Receiver → List Operation → List Decision
  | _, [] => []
  | receiver, operation :: operations =>
      if operation.seqNo < receiver.target.nextSeqNo then
        decisions segments receiver operations
      else if receiver.copy.engine.hasProcessed operation.seqNo.toInt then
        .processed operation :: decisions segments receiver.advance operations
      else
        match receiver.search segments operation with
        | (.error _, _) => []
        | (.ok hit?, resolver) =>
            if hit?.any (operation.seqNo ≤ ·.seqNo) then
              .superseded operation ::
                decisions segments (advance { receiver with target.resolver := resolver }) operations
            else
              match receiver.copy.engine.apply operation with
              | (.error _, _) => []
              | (.ok (), engine) =>
                  .applied operation :: decisions segments
                    (advance { receiver with target.resolver := resolver, copy.engine := engine })
                    operations

theorem Replayed.decisions_eq {segments : List Segment} {receiver final : Receiver}
    {operations : List Operation} {decisions : List Decision}
    (replayed : receiver.Replayed segments operations decisions final) :
    receiver.decisions segments operations = decisions := by
  induction replayed with
  | done => rfl
  | passed seen rest ih =>
      rw [Receiver.decisions, if_pos seen]
      exact ih
  | decided next room decides rest ih =>
      rw [Receiver.decisions, if_neg (next ▸ Int64.lt_irrefl)]
      cases decides with
      | processed before =>
          rw [if_pos before, ih]
      | superseded fresh found newer =>
          rw [fresh, if_neg Bool.false_ne_true, found]
          dsimp only
          rw [if_pos (by rw [Option.any_some]; exact decide_eq_true newer), ih]
      | applied fresh found older ran =>
          rw [fresh, if_neg Bool.false_ne_true, found]
          dsimp only
          rw [older, if_neg Bool.false_ne_true, ran]
          dsimp only
          rw [ih]

/-- How a request that is granted goes on with the episode of its recovery. -/
def narrate (receiver : Receiver) (episode : Episode) : Request → Episode
  | .step _ _ _ (.filesComplete startSeqNo _) =>
      { startSeqNo := startSeqNo.toInt, staged := receiver.staged.toOption.getD [] }
  | .step _ _ _ (.replay operations _) =>
      { episode with
        decisions := episode.decisions ++
          receiver.decisions receiver.copy.engine.segments operations }
  | _ => episode

theorem finalize_ok {globalCheckpoint : Int64} {reply : Reply} {receiver final : Receiver}
    (ran : (Receiving.finalize globalCheckpoint).start receiver = (.ok reply, final)) :
    receiver.phase = .ops ∧ receiver.target.opsRecovered = receiver.target.totalOps ∧
      final.phase = .done ∧ reply = .finalizeAck receiver.target.localCheckpoint ∧
      final.copy.engine = receiver.copy.engine := by
  by_cases ready : receiver.phase = .ops ∧ receiver.target.opsRecovered = receiver.target.totalOps
  · obtain ⟨journal, _, outcome⟩ := Receiving.start_finalize ready.1 ready.2 globalCheckpoint
    rw [outcome] at ran
    split at ran
    · cases ran
      exact ⟨ready.1, ready.2, rfl, rfl, rfl⟩
    · cases ran
  · obtain ⟨error, refused⟩ := Receiving.finalize_refused ready globalCheckpoint
    rw [refused] at ran
    cases ran

/-- A checkpoint is acknowledged to the request that finalizes the recovery. -/
theorem Answer.finalizeAck {receiver after : Receiver} {request : Request} {checkpoint : Int64}
    (answer : Answer receiver request (.finalizeAck checkpoint) after) :
    receiver.phase = .ops ∧ receiver.target.opsRecovered = receiver.target.totalOps ∧
      checkpoint = receiver.target.localCheckpoint ∧
      after.copy.engine = receiver.copy.engine := by
  generalize acknowledged : Reply.finalizeAck checkpoint = reply at answer
  cases answer with
  | cancelled => cases acknowledged
  | refused ended => cases acknowledged
  | failed going ran => cases acknowledged
  | @performed _ _ _ command _ _ going ran =>
      cases command with
      | announce announcement totalOps =>
          rw [(Receiving.announce_ok ran).2.1] at acknowledged
          cases acknowledged
      | transfer chunk totalOps =>
          rw [Receiving.transfer_reply ran] at acknowledged
          cases acknowledged
      | filesComplete startSeqNo totalOps =>
          rw [(Receiving.filesComplete_ok ran).2.1] at acknowledged
          cases acknowledged
      | replay operations totalOps =>
          obtain ⟨_, _, _, _, _, _, _, _, reply⟩ := Receiving.replay_eq_ok_iff.mp ran
          rw [reply] at acknowledged
          cases acknowledged
      | finalize globalCheckpoint =>
          obtain ⟨inOps, complete, _, reply, engine⟩ := finalize_ok ran
          rw [reply] at acknowledged
          cases acknowledged
          exact ⟨inOps, complete, rfl, engine⟩

/-- A target that replays operations after a request is described by the
episode of its recovery. -/
theorem Answer.describes {receiver after : Receiver} {episode : Episode}
    (sound : receiver.phase ≠ .failed → receiver.target.Sound)
    (describes : receiver.phase = .ops → episode.Describes receiver.target receiver.copy.engine)
    {request : Request} {reply : Reply} (answer : Answer receiver request reply after)
    (inOps : after.phase = .ops) :
    (receiver.narrate episode request).Describes after.target after.copy.engine := by
  cases answer with
  | @cancelled _ _ reason =>
      cases ended : receiver.isOver with
      | true =>
          rw [cancel_of_isOver ended] at inOps
          rw [going_of_ops inOps] at ended
          cases ended
      | false =>
          rw [phase_cancel ended reason] at inOps
          cases inOps
  | refused ended =>
      rw [going_of_ops inOps] at ended
      cases ended
  | failed going ran =>
      rw [phase_fail going ran] at inOps
      cases inOps
  | @performed _ _ _ command _ _ going ran =>
      cases command with
      | announce announcement totalOps =>
          obtain ⟨_, _, _, _, _, _, _, target⟩ := Receiving.announce_ok ran
          have moved : after.phase = .files := congrArg (·.progress.phase) target
          rw [moved] at inOps
          cases inOps
      | transfer chunk totalOps =>
          rw [(Receiving.transfer_ok ran).2] at inOps
          cases inOps
      | filesComplete startSeqNo totalOps =>
          obtain ⟨_, _, _, _, segments, _, staged, _⟩ := Receiving.filesComplete_ok ran
          rw [narrate, staged]
          exact Episode.describes_filesComplete (sound (not_failed_of_going going)) ran staged
      | replay operations totalOps =>
          obtain ⟨before, _, decisions, replayed, engine, replaying, refreshed, settled, _⟩ :=
            Receiving.replay_eq_ok_iff.mp ran
          rw [narrate, replaying.decisions_eq]
          exact (describes before).replay replaying refreshed settled
      | finalize globalCheckpoint =>
          rw [(finalize_ok ran).2.2.1] at inOps
          cases inOps

end Receiver

inductive Event where
  | register (shard : ShardId) (store : String) (engine : Engine)
  | modify (store : String) (change : Store → Store)
  | start (shard : ShardId) (source : NodeId)
  | remove (recovery : Int64)
  | handle (request : Request)
  /-- The process numbers a recovery of another service. -/
  | elsewhere

/-- A service, where each recovery was told to begin, and the episodes. -/
structure Watched where
  service : Service
  told : Int64 → Int64 := fun _ => 0
  episodes : Int64 → Episode := fun _ => {}

namespace Watched

/-- How a request goes on with the episode of its recovery. -/
def narrate (watched : Watched) (request : Request) : Episode :=
  match watched.service.targets[request.recovery]? with
  | some registered =>
      if registered.target.shard = request.shard then
        (watched.service.receiver registered).narrate (watched.episodes request.recovery) request
      else watched.episodes request.recovery
  | none => watched.episodes request.recovery

def next (watched : Watched) : Event → Watched
  | .register shard store engine =>
      { watched with service := watched.service.register shard store engine }
  | .modify store change => { watched with service := watched.service.modifyStore store change }
  | .start shard source =>
      { watched with
        service := (watched.service.startRecovery shard source).2
        told := fun recovery =>
          match (watched.service.startRecovery shard source).1 with
          | .ok request =>
              if recovery = request.recovery then request.startSeqNo else watched.told recovery
          | .error _ => watched.told recovery }
  | .remove recovery => { watched with service := (watched.service.remove recovery).2 }
  | .handle request =>
      { watched with
        service := (watched.service.handle request).2
        episodes := fun recovery =>
          if recovery = request.recovery then watched.narrate request
          else watched.episodes recovery }
  | .elsewhere => { watched with service := watched.service.skipNumber }

/-- What the events of a run lead to, from a service that knows no shard. -/
def run (node : NodeId) (events : List Event) : Watched :=
  events.foldl next { service := { node } }

/-- Every target that replays operations is described by its episode. -/
structure Orderly (watched : Watched) : Prop where
  placed : watched.service.Placed
  sound : ∀ (recovery : Int64) (registered : Registered),
    watched.service.targets[recovery]? = some registered →
      registered.target.progress.phase ≠ .failed → registered.target.Sound
  described : ∀ (recovery : Int64) (registered : Registered),
    watched.service.targets[recovery]? = some registered →
      registered.target.progress.phase = .ops →
        (watched.episodes recovery).Describes registered.target
          (watched.service.engineAt registered.place.engine)

theorem Orderly.spares {watched later : Watched} (orderly : watched.Orderly)
    (placed : later.service.Placed) (spares : Service.Spares watched.service later.service)
    (same : later.episodes = watched.episodes) : later.Orderly where
  placed
  sound recovery registered found := orderly.sound recovery registered (spares _ _ found).1
  described recovery registered found inOps := by
    obtain ⟨before, engine⟩ := spares recovery registered found
    rw [same, engine]
    exact orderly.described recovery registered before inOps

theorem Orderly.start {watched : Watched} (orderly : watched.Orderly) (shard : ShardId)
    (source : NodeId) : (watched.next (.start shard source)).Orderly where
  placed := Service.placed_startRecovery orderly.placed shard source
  sound recovery registered found lasting := by
    rcases Service.spares_startRecovery orderly.placed shard source recovery registered found with
      fresh | ⟨before, _⟩
    · rw [fresh]
      exact Target.sound_begun recovery shard
    · exact orderly.sound recovery registered before lasting
  described recovery registered found inOps := by
    rcases Service.spares_startRecovery orderly.placed shard source recovery registered found with
      fresh | ⟨before, engine⟩
    · rw [fresh] at inOps
      cases inOps
    · have described := orderly.described recovery registered before inOps
      rw [← engine] at described
      exact described

theorem narrate_of_registered {watched : Watched} {request : Request} {registered : Registered}
    (there : watched.service.targets[request.recovery]? = some registered)
    (shard : registered.target.shard = request.shard) :
    watched.narrate request =
      (watched.service.receiver registered).narrate (watched.episodes request.recovery) request := by
  rw [narrate, there]
  exact if_pos shard

theorem narrate_of_stray {watched : Watched} {request : Request}
    (stray : ∀ registered, watched.service.targets[request.recovery]? = some registered →
      registered.target.shard ≠ request.shard) :
    watched.narrate request = watched.episodes request.recovery := by
  rw [narrate]
  cases there : watched.service.targets[request.recovery]? with
  | none => rfl
  | some registered => exact if_neg (stray registered there)

/-- The work of a target goes on with its own episode only. -/
theorem Orderly.worked {watched : Watched} (orderly : watched.Orderly) {request : Request}
    {registered : Registered}
    (there : watched.service.targets[request.recovery]? = some registered)
    (shard : registered.target.shard = request.shard) :
    Orderly { watched.next (.handle request) with
      service := watched.service.worked request.recovery registered
        ((watched.service.receiver registered).handle request).2 } where
  placed := orderly.placed.shrinks (Service.shrinks_worked orderly.placed there _)
  sound recovery spared found lasting := by
    by_cases own : request.recovery = recovery
    · rw [Service.targets_worked, if_pos own] at found
      cases found
      exact (Receiver.answer_handle _ request).sound
        (orderly.sound request.recovery registered there) lasting
    · exact orderly.sound recovery spared
        (Service.spares_worked orderly.placed there _ own found).1 lasting
  described recovery spared found inOps := by
    by_cases own : request.recovery = recovery
    · rw [Service.targets_worked, if_pos own] at found
      cases found
      have before : (watched.service.receiver registered).phase = .ops →
          (watched.episodes request.recovery).Describes
            (watched.service.receiver registered).target
            (watched.service.receiver registered).copy.engine :=
        orderly.described request.recovery registered there
      have sound : (watched.service.receiver registered).phase ≠ .failed →
          (watched.service.receiver registered).target.Sound :=
        orderly.sound request.recovery registered there
      have described := Receiver.Answer.describes sound before
        (Receiver.answer_handle (watched.service.receiver registered) request) inOps
      rw [Service.engineAt_worked, if_pos rfl, next]
      dsimp only
      rw [if_pos own.symm, narrate_of_registered there shard]
      exact described
    · obtain ⟨before, engine⟩ := Service.spares_worked orderly.placed there _ own found
      rw [engine, next]
      dsimp only
      rw [if_neg (fun same => own same.symm)]
      exact orderly.described recovery spared before inOps

theorem Orderly.handle {watched : Watched} (orderly : watched.Orderly) (request : Request) :
    (watched.next (.handle request)).Orderly := by
  by_cases known : ∃ registered, watched.service.targets[request.recovery]? = some registered ∧
      registered.target.shard = request.shard
  · obtain ⟨registered, there, shard⟩ := known
    have worked := orderly.worked there shard
    have handled := congrArg Prod.snd (Service.handle_of_registered there shard)
    have placed : (watched.next (.handle request)).service.Placed := by
      rw [next]
      dsimp only
      rw [handled]
      split
      · exact worked.placed.shrinks (Service.shrinks_retire _ _)
      · exact worked.placed
    refine worked.spares placed ?_ rfl
    rw [next]
    dsimp only
    rw [handled]
    split
    · exact Service.spares_retire _ _
    · exact .refl _
  · have stray : ∀ registered, watched.service.targets[request.recovery]? = some registered →
        registered.target.shard ≠ request.shard :=
      fun registered there shard => known ⟨registered, there, shard⟩
    have same := (Service.handle_of_stray stray).1
    have episodes : (watched.next (.handle request)).episodes = watched.episodes := by
      funext recovery
      rw [next]
      dsimp only
      split
      · next own => rw [narrate_of_stray stray, own]
      · rfl
    have service : (watched.next (.handle request)).service = watched.service := same
    refine orderly.spares ?_ ?_ episodes
    · rw [service]
      exact orderly.placed
    · rw [service]
      exact .refl _

theorem Orderly.next {watched : Watched} (orderly : watched.Orderly) (event : Event) :
    (watched.next event).Orderly := by
  cases event with
  | register shard store engine =>
      exact orderly.spares (Service.placed_register orderly.placed shard store engine)
        (Service.spares_register orderly.placed shard store engine) rfl
  | modify store change =>
      exact orderly.spares (orderly.placed.shrinks (.of_same rfl rfl rfl)) (.refl _) rfl
  | start shard source => exact orderly.start shard source
  | remove recovery =>
      exact orderly.spares (orderly.placed.shrinks (Service.shrinks_remove _ recovery))
        (Service.spares_remove _ recovery) rfl
  | handle request => exact orderly.handle request
  | elsewhere => exact orderly.spares (orderly.placed.shrinks (.of_same rfl rfl rfl)) (.refl _) rfl

theorem orderly_run (node : NodeId) (events : List Event) : (run node events).Orderly := by
  have begun : Orderly { service := { node } } :=
    ⟨Service.placed_empty node, fun recovery registered found => by simp at found,
      fun recovery registered found => by simp at found⟩
  have kept : ∀ watched : Watched, watched.Orderly → (events.foldl next watched).Orderly := by
    intro watched orderly
    induction events generalizing watched with
    | nil => exact orderly
    | cons event events ih => exact ih (watched.next event) (orderly.next event)
  exact kept _ begun

end Watched

/-- An engine has processed all numbers from zero to a given one. -/
def Covers (engine : Engine) (last : Int) : Prop :=
  ∀ number, 0 ≤ number → number ≤ last → engine.hasProcessed number = true

namespace Watched

/-- A finalized recovery is acknowledged with a checkpoint that its engine covers exactly if
the staged segments held all numbers before the start and no operation was skipped for a
newer document. Only a checkpoint that has run over the last sequence number, and so is less
than the one before the start, is covered whatever happened. -/
theorem covers_finalizeAck_iff {node : NodeId} {events : List Event} {request : Request}
    {checkpoint : Int64} {after : Service}
    (acknowledged : (run node events).service.handle request = (.finalizeAck checkpoint, after))
    (started : 0 ≤ ((run node events).episodes request.recovery).startSeqNo) :
    ∃ registered, (run node events).service.targets[request.recovery]? = some registered ∧
      (Covers (after.engineAt registered.place.engine) checkpoint.toInt ↔
        checkpoint.toInt < ((run node events).episodes request.recovery).startSeqNo - 1 ∨
          ((run node events).episodes request.recovery).IsFilled ∧
            ¬ ((run node events).episodes request.recovery).HasSuperseded) ∧
      (checkpoint.toInt ≤ (after.engineAt registered.place.engine).localCheckpoint ↔
        Covers (after.engineAt registered.place.engine) checkpoint.toInt) ∧
      (after.slotPlace registered.target.shard = some registered.place →
        after.engine? registered.target.shard =
          some (after.engineAt registered.place.engine)) := by
  have orderly := orderly_run node events
  generalize run node events = watched at *
  by_cases known : ∃ registered, watched.service.targets[request.recovery]? = some registered ∧
      registered.target.shard = request.shard
  · obtain ⟨registered, there, shard⟩ := known
    have handled := Service.handle_of_registered there shard
    rw [acknowledged, Prod.mk.injEq] at handled
    obtain ⟨reply, outcome⟩ := handled
    have answer := Receiver.answer_handle (watched.service.receiver registered) request
    rw [← reply] at answer
    obtain ⟨inOps, complete, same, untouched⟩ := answer.finalizeAck
    have engine : after.engineAt registered.place.engine =
        watched.service.engineAt registered.place.engine := by
      rw [outcome]
      split
      · rw [Service.engineAt_retire, Service.engineAt_worked, if_pos rfl, untouched]
        rfl
      · rw [Service.engineAt_worked, if_pos rfl, untouched]
        rfl
    -- finalizing leaves the engine as the replay has described it
    have describes := orderly.described request.recovery registered there inOps
    refine ⟨registered, there, ?_, ?_, fun place => ?_⟩
    · rw [engine, same]
      exact describes.all_processed_iff started complete
    · rw [engine]
      exact Tracker.le_checkpoint_iff describes.sound checkpoint.toInt
    · rw [Service.slotPlace, Option.map_eq_some_iff] at place
      obtain ⟨slot, found, place⟩ := place
      rw [Service.engine?, found, ← place]
      rfl
  · have stray : ∀ registered, watched.service.targets[request.recovery]? = some registered →
        registered.target.shard ≠ request.shard :=
      fun registered there shard => known ⟨registered, there, shard⟩
    obtain ⟨_, reply | ⟨error, reply⟩⟩ := Service.handle_of_stray stray <;>
      rw [acknowledged] at reply <;> cases reply

/-- Completing the files carries the number that the recovery was told to begin
with. -/
def follows (watched : Watched) : Event → Bool
  | .handle (.step _ recovery _ (.filesComplete startSeqNo _)) =>
      startSeqNo == watched.told recovery
  | _ => true

/-- All events of a run do. -/
def isFaithful : Watched → List Event → Bool
  | _, [] => true
  | watched, event :: events => watched.follows event && isFaithful (watched.next event) events

/-- A segment with one document, whose sequence number is one. -/
def secondOnly : Bytes := [
    0x50, 0x52, 0x53, 0x47, 0x01, 0x01, 0x01, 0x01, 0x01, 0x00, 0x00, 0x00, 0x00,
    0x00, 0x00, 0x00, 0x02, 0x01, 0x01, 0x00, 0x00, 0x00, 0x00, 0x00, 0x00, 0x00,
    0x01, 0x01, 0x01, 0x00, 0x00, 0x00, 0x00, 0x00, 0x00, 0x00, 0x01, 0x00, 0x00,
    0x01, 0x01, 0x01, 0x61, 0x01, 0x00, 0x00, 0x57, 0x4e, 0x7a, 0xc8]

def receivingNode : NodeId := { id := .zero, name := "node" }

/-- A recovery of a shard that had nothing. The source has flushed the second
operation before it sends its files, and both are replayed. -/
def flushed : List Event := [
  .register default "a" {},
  .start default receivingNode,
  .handle <| .step 1 1 default <| .announce
    { names := ["_1.seg"], sizes := [50], existingNames := [], existingSizes := [] } 2,
  .handle <| .step 2 1 default <| .transfer {
    file := { name := "_1.seg", length := 50, checksum := 1017060992 }
    position := 0, content := secondOnly, isLast := true, checksum := 1017060992 } 2,
  .handle <| .step 3 1 default <| .filesComplete 0 2,
  .handle <| .step 4 1 default <| .replay [
    { seqNo := 0, primaryTerm := 1, action := .index "a" 1 [] },
    { seqNo := 1, primaryTerm := 1, action := .index "a" 2 [] }] 2]

def replayed : Watched := run receivingNode flushed

def finalized : Reply × Service := replayed.service.handle (.step 5 1 default (.finalize 1))

theorem covers_finalizeAck_iff_flushed :
    replayed.service.handle (.step 5 1 default (.finalize 1)) = (.finalizeAck 1, finalized.2) ∧
      0 ≤ (replayed.episodes 1).startSeqNo ∧
      ∃ registered, replayed.service.targets[(1 : Int64)]? = some registered ∧
        (Covers (finalized.2.engineAt registered.place.engine) 1 ↔
          (replayed.episodes 1).IsFilled ∧ ¬ (replayed.episodes 1).HasSuperseded) := by
  have acknowledged : replayed.service.handle (.step 5 1 default (.finalize 1)) =
      (.finalizeAck 1, finalized.2) := Prod.fst_eq_iff.mp (by decide +kernel)
  have started : 0 ≤ (replayed.episodes 1).startSeqNo := by decide +kernel
  obtain ⟨registered, there, covers, _⟩ := covers_finalizeAck_iff acknowledged started
  have within : ¬ (1 : Int) < (replayed.episodes 1).startSeqNo - 1 := by decide +kernel
  exact ⟨acknowledged, started, registered, there, covers.trans (or_iff_right within)⟩

/-- The first operation is skipped, because the segment holds a newer document,
and its number is acknowledged although the engine has never processed it. -/
theorem not_covers_finalizeAck_flushed :
    ¬ ∀ (node : NodeId) (events : List Event) (request : Request) (checkpoint : Int64)
      (registered : Registered), isFaithful { service := { node } } events = true →
        ((run node events).service.handle request).1 = .finalizeAck checkpoint →
        (run node events).service.targets[request.recovery]? = some registered →
        Covers (((run node events).service.handle request).2.engineAt registered.place.engine)
          checkpoint.toInt := by
  intro claimed
  have known : ∃ registered, replayed.service.targets[(1 : Int64)]? = some registered ∧
      registered.place.engine = 0 := by
    have engine : (replayed.service.targets[(1 : Int64)]?.map (·.place.engine)) = some 0 := by
      decide +kernel
    exact Option.map_eq_some_iff.mp engine
  obtain ⟨registered, there, engine⟩ := known
  have covers := claimed receivingNode flushed (.step 5 1 default (.finalize 1)) 1 registered
    (by decide +kernel) (by decide +kernel) there 0 (by decide) (by decide)
  rw [engine] at covers
  exact absurd covers (by decide +kernel)

end Watched

end ShardSync.Recovery
