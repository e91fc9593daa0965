import ShardSync.Proofs.Recovery.Conformance
import ShardSync.Proofs.Recovery.Succession

/-!
# Recoveries on a service

A service that gets no other requests for a recovery than those of its session.
While the recovery is going on its target conforms to the session; when it is
over, its shard remembers how it ended, and nothing changes any more.
-/

set_option autoImplicit false

namespace ShardSync.Recovery

namespace Receiver

theorem shard_abort (receiver : Receiver) (description : String) (cancelled : Bool)
    (event : Log.Event) (fields : List (String × String)) :
    (receiver.abort description cancelled event fields).target.shard = receiver.target.shard := by
  unfold abort
  dsimp only
  split <;> simp [log, logLine]

theorem Answer.shard {receiver after : Receiver} {request : Request} {reply : Reply}
    (answer : receiver.Answer request reply after) :
    after.target.shard = receiver.target.shard := by
  cases answer with
  | cancelled =>
      unfold cancel
      split
      · rfl
      · exact shard_abort receiver _ _ _ _
  | refused => rfl
  | performed _ ran => exact ((Receiving.enduring_perform _).part (·.2.1)).of_ok ran
  | failed _ ran =>
      exact (shard_abort _ _ _ _ _).trans (((Receiving.enduring_perform _).part (·.2.1)).after ran)

end Receiver

/-- A request that a session sends finds the target of the session, if there is one. -/
theorem Script.Allows.ids {script : Script} {request : Request}
    (allowed : script.Allows request) :
    request.recovery = script.start.recovery ∧ request.shard = script.start.shard := by
  cases allowed with
  | step => exact ⟨rfl, rfl⟩
  | cancel => exact ⟨rfl, rfl⟩

namespace Service

/-- The files of a shard. -/
def storeOf (service : Service) (shard : ShardId) : Store :=
  ((service.slotPlace shard).map fun place => (service.copyAt place).store).getD {}

/-- The progress of a recovery of a shard: it is going on, or it is the last one
of the shard that is over. -/
def progressOf (service : Service) (shard : ShardId) (recovery : Int64) : Option Progress :=
  match service.targets[recovery]? with
  | some registered => some registered.target.progress
  | none => (service.finishedOf shard).bind fun (finished, progress) =>
      if finished = recovery then some progress else none

theorem storeOf_eq {service : Service} {shard : ShardId} {place : Place}
    (slot : service.slotPlace shard = some place) :
    service.storeOf shard = (service.copyAt place).store := by
  rw [storeOf, slot]
  rfl

/-- A shard stays where it is when its recovery makes way for another one. -/
theorem slotPlace_superseded (service : Service) (shard other : ShardId) :
    (service.superseded shard).slotPlace other = service.slotPlace other := by
  unfold superseded
  rcases supersede_cases { service with issued := service.issued + 1 } shard
      (.ofNat (service.issued + 1)) with
    ⟨_, same⟩ | ⟨_, _, _, same⟩ | ⟨_, registered, receiver, finished, _, _, same⟩
  · rw [same]
    rfl
  · rw [same]
    apply slotPlace_modifySlot
    exact fun _ => rfl
  · rw [same]
    refine (slotPlace_modifySlot ?annotated _ shard other).trans ?cleared
    case annotated => exact fun _ => rfl
    case cleared =>
      exact @slotPlace_modifySlot (fun slot => { slot with active? := none }) (fun _ => rfl)
        { service with issued := service.issued + 1 } shard other

/-- The recovery of a session is over, and the shard remembers how it ended. -/
def HasEnded (service : Service) (script : Script) (phase : Phase) : Prop :=
  service.targets[script.start.recovery]? = none ∧
    ∃ progress, service.finishedOf script.start.shard = some (script.start.recovery, progress) ∧
      progress.phase = phase

theorem HasEnded.progressOf {service : Service} {script : Script} {phase : Phase}
    (ended : service.HasEnded script phase) :
    (service.progressOf script.start.shard script.start.recovery).map (·.phase) = some phase := by
  obtain ⟨gone, progress, finished, same⟩ := ended
  rw [Service.progressOf, gone, finished]
  simp [same]

/-- A recovery that is driven by a session, as it stands on a service. -/
inductive Stands (script : Script) (place : Place) (before : Store) (service : Service) :
    Prop where
  | going {registered : Registered}
      (slot : service.slotPlace script.start.shard = some place)
      (there : service.targets[script.start.recovery]? = some registered)
      (shard : registered.target.shard = script.start.shard) (placed : registered.place = place)
      (conforms : (service.receiver registered).Conforms script before)
  | failed (slot : service.slotPlace script.start.shard = some place)
      (ended : service.HasEnded script .failed)
  | done {agenda : Agenda} {progress : Progress}
      (slot : service.slotPlace script.start.shard = some place)
      (gone : service.targets[script.start.recovery]? = none)
      (finished : service.finishedOf script.start.shard =
        some (script.start.recovery, progress))
      (planned : script.agenda? = some agenda)
      (fulfilled : script.Fulfilled agenda before (service.copyAt place).store progress)

/-- How a service handles a request of a session. -/
inductive Handles (script : Script) (place : Place) (before : Store) (service : Service) :
    Request → Reply → Service → Prop where
  | continued {request : Request} {reply : Reply} {after : Service}
      (going : service.targets[script.start.recovery]? ≠ none)
      (ordinary : request.isOrdinary = true)
      (pending : ∀ checkpoint, reply ≠ .finalizeAck checkpoint)
      (stands : after.Stands script place before)
      (still : after.targets[script.start.recovery]? ≠ none) :
      Handles script place before service request reply after
  | failed {request : Request} {reply : Reply} {after : Service}
      (going : service.targets[script.start.recovery]? ≠ none)
      (pending : ∀ checkpoint, reply ≠ .finalizeAck checkpoint)
      (stands : after.Stands script place before) (ended : after.HasEnded script .failed) :
      Handles script place before service request reply after
  | finished {number recovery globalCheckpoint : Int64} {shard : ShardId} {agenda : Agenda}
      {after : Service} (going : service.targets[script.start.recovery]? ≠ none)
      (planned : script.agenda? = some agenda)
      (stands : after.Stands script place before) (ended : after.HasEnded script .done) :
      Handles script place before service (.step number recovery shard (.finalize globalCheckpoint))
        (.finalizeAck (.ofInt (script.start.startSeqNo.toInt + agenda.totalOps.toNat - 1))) after
  | stray {request : Request} {reply : Reply}
      (past : service.HasEnded script .failed ∨ service.HasEnded script .done)
      (pending : ∀ checkpoint, reply ≠ .finalizeAck checkpoint) :
      Handles script place before service request reply service

/-- A target goes on with what it has made of its copy. -/
theorem receiver_worked (service : Service) (recovery : Int64) (registered : Registered)
    (after : Receiver) :
    (service.worked recovery registered after).receiver
      { registered with target := after.target } = after := by
  have copy : (service.worked recovery registered after).copyAt registered.place = after.copy :=
    copyAt_keep service registered.place after
  rw [receiver, copy]
  rfl

/-- A target that is over is dropped, and its shard remembers how it has ended. -/
theorem ended_worked {service : Service} {recovery : Int64} {registered : Registered}
    {place : Place} (slot : service.slotPlace registered.target.shard = some place)
    (after : Receiver) (same : after.target.shard = registered.target.shard) :
    ((service.worked recovery registered after).retire recovery).targets[recovery]? = none ∧
      ((service.worked recovery registered after).retire recovery).finishedOf
        registered.target.shard = some (recovery, after.target.progress) ∧
      ((service.worked recovery registered after).retire recovery).slotPlace
        registered.target.shard = some place ∧
      ((service.worked recovery registered after).retire recovery).copyAt registered.place =
        after.copy := by
  rw [slotPlace, Option.map_eq_some_iff] at slot
  obtain ⟨kept, known, rfl⟩ := slot
  have there := targets_worked service recovery recovery registered after
  rw [if_pos rfl] at there
  refine ⟨?_, ?_, ?_, ?_⟩
  case refine_4 =>
    rw [copyAt_retire]
    exact copyAt_keep service registered.place after
  all_goals rw [retire, there]
  · simp [modifySlot]
  · dsimp only
    rw [finishedOf, slots_modifySlot, same, if_pos rfl]
    simp [worked, keep, known]
  · dsimp only
    rw [slotPlace, slots_modifySlot, same, if_pos rfl]
    simp [worked, keep, known]

theorem HasEnded.exclusive {service : Service} {script : Script} {first second : Phase}
    (ended : service.HasEnded script first) (also : service.HasEnded script second) :
    first = second := by
  obtain ⟨_, progress, finished, rfl⟩ := ended
  obtain ⟨_, other, same, rfl⟩ := also
  rw [finished] at same
  cases same
  rfl

theorem Stands.past {script : Script} {place : Place} {before : Store} {service : Service}
    (stands : service.Stands script place before)
    (gone : service.targets[script.start.recovery]? = none) :
    service.HasEnded script .failed ∨ service.HasEnded script .done := by
  cases stands with
  | going _ there =>
      rw [gone] at there
      cases there
  | failed _ ended => exact .inl ended
  | done _ _ finished _ fulfilled => exact .inr ⟨gone, _, finished, fulfilled.phase⟩

/-- A recovery whose progress is done has ended so. -/
theorem Stands.ended_of_done {script : Script} {place : Place} {before : Store}
    {service : Service} {progress : Progress} (stands : service.Stands script place before)
    (found : service.progressOf script.start.shard script.start.recovery = some progress)
    (done : progress.phase = .done) :
    service.HasEnded script .done ∧ ∃ agenda, script.agenda? = some agenda := by
  cases stands with
  | @going registered _ there _ _ conforms =>
      rw [progressOf, there] at found
      cases found
      have going := conforms.going
      rw [Receiver.isOver_eq, Receiver.phase] at going
      exact absurd going (by simp [receiver, done, Phase.isTerminal])
  | failed _ ended =>
      have failed := ended.progressOf
      rw [found, Option.map_some, done] at failed
      cases failed
  | done _ gone finished planned fulfilled =>
      exact ⟨⟨gone, _, finished, fulfilled.phase⟩, _, planned⟩

/-- How a session's request is handled. The recovery goes on, or it has failed, or
it is finished; and when it is over nothing changes any more. -/
theorem Stands.handle {script : Script} {place : Place} {before : Store} {service : Service}
    {request : Request} (stands : service.Stands script place before)
    (asked : before.Lists script.start.files) (allowed : script.Allows request) :
    service.Handles script place before request (service.handle request).1
      (service.handle request).2 := by
  obtain ⟨recovery, shard⟩ := allowed.ids
  cases there : service.targets[script.start.recovery]? with
  | none =>
      have stray (registered : Registered)
          (found : service.targets[request.recovery]? = some registered) :
          registered.target.shard ≠ request.shard := by
        rw [recovery, there] at found
        cases found
      obtain ⟨same, replied⟩ := handle_of_stray stray
      rw [same]
      refine .stray (stands.past there) fun checkpoint => ?_
      rcases replied with replied | ⟨error, replied⟩ <;> simp [replied, Reply.ofError]
  | some registered =>
      cases stands with
      | failed _ ended => cases ended.1.symm.trans there
      | done _ gone => cases gone.symm.trans there
      | @going known slot found own placed conforms =>
          obtain rfl : known = registered := Option.some.inj (found.symm.trans there)
          have live : service.targets[script.start.recovery]? ≠ none := by simp [there]
          rw [handle_of_registered (recovery ▸ there) (own.trans shard.symm)]
          have answer := Receiver.answer_handle (service.receiver known) request
          have moved := answer.shard
          revert answer moved
          generalize (service.receiver known).handle request = outcome
          obtain ⟨reply, after⟩ := outcome
          intro answer moved
          dsimp only at answer moved ⊢
          have past := @ended_worked service request.recovery known place (own ▸ slot) after moved
          rw [own] at past
          obtain ⟨gone, finished, still, copy⟩ := past
          rw [placed] at copy
          rw [recovery] at gone finished still copy ⊢
          cases conforms.responds asked allowed answer with
          | continued ordinary conforming pending =>
              rw [if_neg (by simp [conforming.going])]
              have entry := targets_worked service script.start.recovery script.start.recovery known
                after
              rw [if_pos rfl] at entry
              refine .continued live ordinary pending ?_ (by simp [entry])
              refine .going slot entry (moved.trans own) placed ?_
              rw [receiver_worked]
              exact conforming
          | failed ended pending =>
              have isOver : after.isOver = true := Receiver.isOver_of_phase ended
              rw [if_pos isOver]
              have ended : HasEnded _ script .failed := ⟨gone, _, finished, ended⟩
              exact .failed live pending (.failed still ended) ended
          | finished planned fulfilled =>
              have isOver : after.isOver = true := Receiver.isOver_of_phase fulfilled.phase
              rw [if_pos isOver]
              refine .finished live planned ?_ ?_
              · exact .done still gone finished planned (copy ▸ fulfilled)
              · exact ⟨gone, _, finished, fulfilled.phase⟩

/-- How a recovery that has just been started stands. -/
theorem stands_started {service after : Service} {shard : ShardId} {node : NodeId}
    {script : Script} (started : service.startRecovery shard node = (.ok script.start, after)) :
    script.start.shard = shard ∧ (after.storeOf shard).Lists script.start.files ∧
      ∃ place, after.Stands script place (after.storeOf shard) := by
  obtain ⟨place, slot, _, same, listed, _, rfl⟩ := startRecovery_ok started
  rw [← slotPlace_superseded service shard] at slot
  generalize service.superseded shard = superseded at slot listed started ⊢
  have still : (superseded.opened shard script.start.recovery
      { target := { recovery := script.start.recovery, shard }, place }).slotPlace shard =
        some place := by
    refine Eq.trans ?_ slot
    apply slotPlace_modifySlot
    exact fun _ => rfl
  have files := storeOf_eq still
  have there : (superseded.opened shard script.start.recovery
      { target := { recovery := script.start.recovery, shard }, place }).targets[
        script.start.recovery]? =
        some { target := { recovery := script.start.recovery, shard }, place } := by
    rw [opened, modifySlot, targets_insert, if_pos rfl]
  refine ⟨same, ?_, place, .going (same ▸ still) there same.symm rfl ?_⟩
  · rw [files]
    exact Store.liveFiles_eq_ok_iff.mp listed
  · rw [files]
    exact same ▸ Receiver.conforms_begun script _ _

/-- What a recovery that is done has made of its shard. -/
theorem Stands.fulfilled {script : Script} {place : Place} {before : Store} {service : Service}
    {agenda : Agenda} (stands : service.Stands script place before)
    (planned : script.agenda? = some agenda) (ended : service.HasEnded script .done) :
    ∃ progress,
      service.progressOf script.start.shard script.start.recovery = some progress ∧
      script.Fulfilled agenda before (service.storeOf script.start.shard) progress := by
  cases stands with
  | going _ there =>
      rw [ended.1] at there
      cases there
  | failed _ failed => cases failed.exclusive ended
  | @done other progress slot gone finished same fulfilled =>
      rw [planned, Option.some.injEq] at same
      subst same
      refine ⟨progress, ?_, storeOf_eq slot ▸ fulfilled⟩
      rw [progressOf, gone, finished]
      exact if_pos rfl

end Service

end ShardSync.Recovery
