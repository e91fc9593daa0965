import ShardSync.Proofs.Recovery.Restoring
import ShardSync.Proofs.Recovery.Succession

/-!
# What a failed recovery makes of the engine of its shard

A failure gives the engine back as it was when the recovery was started only if
the engine had not been replaced yet, or if that engine cannot be told from what
the failure leaves.
-/

set_option autoImplicit false

namespace ShardSync.Recovery

/-- A service, and the engine that each recovery found when it was started. -/
structure Remembered where
  service : Service
  origins : Int64 → Engine := fun _ => {}

namespace Remembered

def next (remembered : Remembered) (event : Event) : Remembered where
  service := remembered.service.after event
  origins :=
    match event with
    | .start shard source =>
        match (remembered.service.startRecovery shard source).1 with
        | .ok start => fun recovery =>
            if recovery = start.recovery then
              ((remembered.service.after event).engine? shard).getD {}
            else remembered.origins recovery
        | .error _ => remembered.origins
    | _ => remembered.origins

/-- What the events of a run lead to, from a service that knows no shard. -/
def run (node : NodeId) (events : List Event) : Remembered :=
  events.foldl next { service := { node } }

/-- Every recovery that is registered is going on, and has left its engine alone
until it staged segments. -/
structure Kept (remembered : Remembered) : Prop where
  placed : remembered.service.Placed
  unstaged : ∀ (recovery : Int64) (registered : Registered),
    remembered.service.targets[recovery]? = some registered →
      (remembered.service.receiver registered).Unstaged (remembered.origins recovery)

namespace Kept

variable {remembered : Remembered}

theorem going (kept : remembered.Kept) (recovery : Int64) (registered : Registered)
    (there : remembered.service.targets[recovery]? = some registered) :
    registered.target.progress.isTerminal = false :=
  (kept.unstaged recovery registered there).going

theorem spares {later : Remembered} (kept : remembered.Kept) (placed : later.service.Placed)
    (spares : Service.Spares remembered.service later.service)
    (same : later.origins = remembered.origins) : later.Kept where
  placed
  unstaged recovery registered found := by
    obtain ⟨before, engine⟩ := spares recovery registered found
    rw [same]
    exact (kept.unstaged recovery registered before).of_same rfl engine

theorem start (kept : remembered.Kept) (shard : ShardId) (source : NodeId) :
    (remembered.next (.start shard source)).Kept where
  placed := Service.placed_startRecovery kept.placed shard source
  unstaged recovery registered found := by
    have shrinks := Service.shrinks_superseded kept.placed shard
    have spares := Service.spares_superseded kept.placed shard
    cases started : remembered.service.startRecovery shard source with
    | mk outcome after =>
        simp only [next, Service.after, started] at found ⊢
        cases outcome with
        | error error =>
            have spared : Service.Spares remembered.service after := by
              rcases Service.startRecovery_error started with same | same
              · rw [same]
                exact .refl _
              · rw [same]
                exact spares
            obtain ⟨before, engine⟩ := spared recovery registered found
            exact (kept.unstaged recovery registered before).of_same rfl engine
        | ok start =>
            obtain ⟨place, slot, _, _, _, _, same⟩ := Service.startRecovery_ok started
            have here : after.slotPlace shard = some place := by
              have before := (shrinks.slots shard).trans slot
              rw [same, Service.slotPlace, Service.opened, Service.slots_modifySlot, if_pos rfl,
                Option.map_map]
              exact before
            rw [same, Service.opened, Service.modifySlot, Service.targets_insert] at found
            dsimp only
            split at found
            · next own =>
                cases found
                rw [if_pos own.symm, Service.engine?_of_slotPlace here]
                exact ⟨rfl, by simp [Service.receiver, Receiver.phase], fun _ => rfl⟩
            · next other =>
                obtain ⟨before, engine⟩ := spares recovery registered found
                rw [if_neg fun own => other own.symm]
                refine (kept.unstaged recovery registered before).of_same rfl ?_
                rw [same]
                exact engine

theorem handle (kept : remembered.Kept) (request : Request) :
    (remembered.next (.handle request)).Kept := by
  by_cases known : ∃ registered,
      remembered.service.targets[request.recovery]? = some registered ∧
        registered.target.shard = request.shard
  · obtain ⟨registered, there, shard⟩ := known
    have answer := Receiver.answer_handle (remembered.service.receiver registered) request
    have handled : (remembered.next (.handle request)).service = _ :=
      congrArg Prod.snd (Service.handle_of_registered there shard)
    have unstaged := kept.unstaged request.recovery registered there
    generalize (remembered.service.receiver registered).handle request = outcome at answer handled
    obtain ⟨reply, after⟩ := outcome
    dsimp only at answer handled
    have placed := kept.placed.shrinks (Service.shrinks_worked kept.placed there after)
    have others {recovery : Int64} {spared : Registered} (differ : request.recovery ≠ recovery)
        (found : (remembered.service.worked request.recovery registered after).targets[recovery]? =
          some spared) :
        ((remembered.service.worked request.recovery registered after).receiver spared).Unstaged
          (remembered.origins recovery) := by
      obtain ⟨before, engine⟩ := Service.spares_worked kept.placed there _ differ found
      exact (kept.unstaged recovery spared before).of_same rfl engine
    cases ended : after.isOver with
    | true =>
        rw [if_pos ended] at handled
        constructor
        · rw [handled]
          exact placed.shrinks (Service.shrinks_retire _ _)
        · intro recovery spared found
          rw [handled] at found ⊢
          have differ : request.recovery ≠ recovery := by
            rintro rfl
            rw [Service.retire, Service.targets_worked, if_pos rfl] at found
            exact (Service.targets_erase found).1 rfl
          obtain ⟨between, engine⟩ := Service.spares_retire _ _ recovery spared found
          exact (others differ between).of_same rfl engine
    | false =>
        rw [if_neg (by rw [ended]; exact Bool.false_ne_true)] at handled
        constructor
        · rw [handled]
          exact placed
        · intro recovery spared found
          rw [handled] at found ⊢
          by_cases own : request.recovery = recovery
          · rw [Service.targets_worked, if_pos own] at found
            cases found
            subst own
            refine (answer.unstaged unstaged ended).of_same rfl ?_
            exact (Service.engineAt_worked ..).trans (if_pos rfl)
          · exact others own found
  · have stray : ∀ registered, remembered.service.targets[request.recovery]? = some registered →
        registered.target.shard ≠ request.shard :=
      fun registered there shard => known ⟨registered, there, shard⟩
    have same : (remembered.next (.handle request)).service = remembered.service :=
      (Service.handle_of_stray stray).1
    refine kept.spares ?_ ?_ rfl
    · rw [same]
      exact kept.placed
    · rw [same]
      exact .refl _

theorem next (kept : remembered.Kept) (event : Event) : (remembered.next event).Kept := by
  cases event with
  | register shard store engine =>
      exact kept.spares (Service.placed_register kept.placed shard store engine)
        (Service.spares_register kept.placed shard store engine) rfl
  | modify store change =>
      exact kept.spares (kept.placed.shrinks (.of_same rfl rfl rfl)) (.refl _) rfl
  | start shard source => exact kept.start shard source
  | remove recovery =>
      exact kept.spares (kept.placed.shrinks (Service.shrinks_remove _ recovery))
        (Service.spares_remove _ recovery) rfl
  | handle request => exact kept.handle request
  | elsewhere => exact kept.spares (kept.placed.shrinks (.of_same rfl rfl rfl)) (.refl _) rfl

end Kept

theorem kept_run (node : NodeId) (events : List Event) : (run node events).Kept := by
  have begun : Kept { service := { node } } :=
    ⟨Service.placed_empty node, fun recovery registered found => by simp at found⟩
  have going : ∀ remembered : Remembered, remembered.Kept →
      (events.foldl next remembered).Kept := by
    intro remembered kept
    induction events generalizing remembered with
    | nil => exact kept
    | cons event events ih => exact ih (remembered.next event) (kept.next event)
  exact going _ begun

/-- The engine that an event leaves behind before the failure of a recovery is
dealt with. -/
def leaves (remembered : Remembered) (registered : Registered) : Event → Engine
  | .handle request => (remembered.service.receiver registered).leaves request
  | _ => remembered.service.engineAt registered.place.engine

/-- A recovery that fails in answer to a request, or makes way for another one,
had been going on. -/
theorem failed_next {remembered : Remembered} (kept : remembered.Kept) {event : Event}
    {recovery : Int64} (unfailed : ¬ remembered.service.HasFailed recovery)
    (failed : (remembered.next event).service.HasFailed recovery) :
    ∃ registered request reply after,
      remembered.service.targets[recovery]? = some registered ∧
      (remembered.service.receiver registered).Answer request reply after ∧
      after.phase = .failed ∧
      (remembered.next event).service.copyAt registered.place = after.copy ∧
      remembered.leaves registered event =
        (remembered.service.receiver registered).leaves request := by
  cases event with
  | register shard store engine => exact absurd (Service.hasFailed_register failed) unfailed
  | modify store change => exact absurd failed unfailed
  | elsewhere => exact absurd failed unfailed
  | remove removed =>
      refine absurd ?_ unfailed
      change (remembered.service.remove removed).2.HasFailed recovery at failed
      unfold Service.remove at failed
      cases there : remembered.service.targets[removed]? with
      | none =>
          rw [there] at failed
          exact Service.hasFailed_forget failed
      | some registered =>
          rw [there] at failed
          dsimp only at failed
          rw [kept.going removed registered there] at failed
          exact failed
  | start shard source =>
      cases started : remembered.service.startRecovery shard source with
      | mk outcome after =>
          simp only [next, Service.after, started] at failed ⊢
          have superseding {later : Service} (failed : later.HasFailed recovery)
              (annotates : later.HasFailed recovery →
                (remembered.service.superseded shard).HasFailed recovery)
              (same : later.copyAt = (remembered.service.superseded shard).copyAt) :
              ∃ registered request reply after,
                remembered.service.targets[recovery]? = some registered ∧
                (remembered.service.receiver registered).Answer request reply after ∧
                after.phase = .failed ∧ later.copyAt registered.place = after.copy ∧
                remembered.service.engineAt registered.place.engine =
                  (remembered.service.receiver registered).leaves request := by
            obtain ⟨registered, reason, there, copy, ended⟩ := @Service.hasFailed_supersede
              { remembered.service with issued := remembered.service.issued + 1 } shard
              (.ofNat (remembered.service.issued + 1)) recovery kept.going unfailed
              (annotates failed)
            refine ⟨registered, .cancel recovery shard reason, .ack, _, there, .cancelled, ended,
              ?_, rfl⟩
            rw [same]
            exact copy
          cases outcome with
          | error error =>
              rcases Service.startRecovery_error started with rfl | rfl
              · exact absurd failed unfailed
              · exact superseding failed id rfl
          | ok start =>
              obtain ⟨place, _, _, _, _, _, rfl⟩ := Service.startRecovery_ok started
              exact superseding failed
                (fun opened => Service.hasFailed_annotate opened fun _ => rfl) rfl
  | handle request =>
      by_cases known : ∃ registered,
          remembered.service.targets[request.recovery]? = some registered ∧
            registered.target.shard = request.shard
      · obtain ⟨registered, there, shard⟩ := known
        have answer := Receiver.answer_handle (remembered.service.receiver registered) request
        have handled : (remembered.next (.handle request)).service = _ :=
          congrArg Prod.snd (Service.handle_of_registered there shard)
        rw [handled] at failed ⊢
        by_cases ended : ((remembered.service.receiver registered).handle request).2.isOver = true
        · rw [if_pos ended] at failed ⊢
          rcases Service.hasFailed_retire failed with before | ⟨rfl, retired, found, ended⟩
          · exact absurd before unfailed
          · rw [Service.targets_worked, if_pos rfl] at found
            cases found
            refine ⟨registered, request, _, _, there, answer, ended, ?_, rfl⟩
            exact (congrFun (Service.copyAt_retire _ _) _).trans (Service.copyAt_keep ..)
        · rw [if_neg ended] at failed
          exact absurd failed unfailed
      · have stray : ∀ registered,
            remembered.service.targets[request.recovery]? = some registered →
              registered.target.shard ≠ request.shard :=
          fun registered there shard => known ⟨registered, there, shard⟩
        have same : (remembered.next (.handle request)).service = remembered.service :=
          (Service.handle_of_stray stray).1
        rw [same] at failed
        exact absurd failed unfailed

/-- When a recovery fails, the engine that it works on becomes the one that the
shard had when the recovery was started exactly if segments had not been staged
yet, or if that engine agrees with the one that the live files give, or, where
these give none, with the one that the failed recovery leaves behind. -/
theorem rolls_back_iff {node : NodeId} {events : List Event} {event : Event} {recovery : Int64}
    (unfailed : ¬ (run node events).service.HasFailed recovery)
    (failed : ((run node events).next event).service.HasFailed recovery) :
    ∃ registered, (run node events).service.targets[recovery]? = some registered ∧
      (((((run node events).next event).service.engineAt registered.place.engine).Agrees
          ((run node events).origins recovery) ↔
        registered.target.progress.phase ≠ .ops ∨
          match liveOnly?
            (((run node events).next event).service.copyAt registered.place).store with
          | some fresh => fresh.Agrees ((run node events).origins recovery)
          | none =>
              ((run node events).leaves registered event).Agrees
                ((run node events).origins recovery))) ∧
      (((run node events).next event).service.slotPlace registered.target.shard =
          some registered.place →
        ((run node events).next event).service.engine? registered.target.shard =
          some (((run node events).next event).service.engineAt registered.place.engine)) := by
  have kept := kept_run node events
  generalize run node events = remembered at *
  obtain ⟨registered, request, reply, after, there, answer, ended, copy, left⟩ :=
    failed_next kept unfailed failed
  have engine : (remembered.next event).service.engineAt registered.place.engine =
      after.copy.engine := congrArg (·.engine) copy
  obtain ⟨untouched, restores⟩ := answer.restores (kept.unstaged recovery registered there) ended
  refine ⟨registered, there, ?_, fun place => Service.engine?_of_slotPlace place⟩
  rw [engine, copy, left]
  by_cases inOps : registered.target.progress.phase = .ops
  · rw [or_iff_right (not_not_intro inOps)]
    have restored := restores inOps
    unfold Receiver.Restores at restored
    cases built : liveOnly? after.copy.store with
    | some fresh =>
        rw [built] at restored
        exact restored.congr _
    | none =>
        rw [built] at restored
        dsimp only at restored ⊢
        rw [restored]
  · rw [untouched inOps]
    exact iff_of_true (.refl _) (.inl inOps)

open Watched (receivingNode)

/-- A recovery that is done has replayed an operation. The next recovery of the
shard has just completed its files, of which there are none. -/
def resumed : List Event := [
  .register default "a" {},
  .start default receivingNode,
  .handle <| .step 1 1 default <| .announce
    { names := [], sizes := [], existingNames := [], existingSizes := [] } 1,
  .handle <| .step 2 1 default <| .filesComplete 0 1,
  .handle <| .step 3 1 default <| .replay [
    { seqNo := 0, primaryTerm := 1, action := .index "a" 1 [] }] 1,
  .handle <| .step 4 1 default <| .finalize 0,
  .start default receivingNode,
  .handle <| .step 1 2 default <| .announce
    { names := [], sizes := [], existingNames := [], existingSizes := [] } 0,
  .handle <| .step 2 2 default <| .filesComplete 1 0]

def givenUp : Event := .handle (.cancel 2 default "enough")

theorem rolls_back_iff_resumed :
    ¬ (run receivingNode resumed).service.HasFailed 2 ∧
      ((run receivingNode resumed).next givenUp).service.HasFailed 2 ∧
      ∃ registered, (run receivingNode resumed).service.targets[(2 : Int64)]? = some registered ∧
        ((((run receivingNode resumed).next givenUp).service.engineAt
            registered.place.engine).Agrees ((run receivingNode resumed).origins 2) ↔
          registered.target.progress.phase ≠ .ops ∨
            match liveOnly?
              (((run receivingNode resumed).next givenUp).service.copyAt registered.place).store with
            | some fresh => fresh.Agrees ((run receivingNode resumed).origins 2)
            | none =>
                ((run receivingNode resumed).leaves registered givenUp).Agrees
                  ((run receivingNode resumed).origins 2)) := by
  have unfailed : ¬ (run receivingNode resumed).service.HasFailed 2 := by decide +kernel
  have failed : ((run receivingNode resumed).next givenUp).service.HasFailed 2 := by
    decide +kernel
  obtain ⟨registered, there, agrees, _⟩ := rolls_back_iff unfailed failed
  exact ⟨unfailed, failed, registered, there, agrees⟩

/-- The operation that the earlier recovery has replayed is in no file, and the
failure of the later one loses it. -/
theorem not_rolls_back_resumed :
    ¬ ∀ (node : NodeId) (events : List Event) (event : Event) (recovery : Int64)
      (registered : Registered), ¬ (run node events).service.HasFailed recovery →
        ((run node events).next event).service.HasFailed recovery →
        (run node events).service.targets[recovery]? = some registered →
        (((run node events).next event).service.engineAt registered.place.engine).Agrees
          ((run node events).origins recovery) := by
  intro claimed
  have known : ∃ registered,
      (run receivingNode resumed).service.targets[(2 : Int64)]? = some registered ∧
        registered.place.engine = 0 := by
    have engine : ((run receivingNode resumed).service.targets[(2 : Int64)]?.map
        (·.place.engine)) = some 0 := by decide +kernel
    exact Option.map_eq_some_iff.mp engine
  obtain ⟨registered, there, engine⟩ := known
  have agrees := claimed receivingNode resumed givenUp 2 registered (by decide +kernel)
    (by decide +kernel) there
  rw [engine] at agrees
  exact absurd agrees.localCheckpoint (by decide +kernel)

end Remembered

end ShardSync.Recovery
