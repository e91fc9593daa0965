import ShardSync.Proofs.Recovery.Isolation
import ShardSync.Proofs.Recovery.Registry

/-!
# The books of a service

If every shard is registered once, a recovery is registered as long as it is the active
one of its shard. When it ends, its last state is kept until another recovery of the
shard ends or somebody removes it.
-/

set_option autoImplicit false

namespace ShardSync.Recovery

/-- The shard that a call makes recoverable. -/
def Call.registers? : Call → Option ShardId
  | .event (.register shard _ _) => some shard
  | _ => none

namespace Service

/-- The state in which a call leaves a recovery that is registered. -/
def leaving (service : Service) (recovery : Int64) (registered : Registered) : Call → Progress
  | .event (.handle request) =>
      ((service.receiver registered).handle request).2.target.progress
  | .event (.start shard _) =>
      (service.displaced shard recovery (.ofNat (service.issued + 1)) registered).target.progress
  | .frame input =>
      match Request.decode input with
      | .ok request => ((service.receiver registered).handle request).2.target.progress
      | .error _ => registered.target.progress
  | _ => registered.target.progress

/-- With the call a recovery of the shard ends, in the given state. -/
structure Ends (service : Service) (call : Call) (shard : ShardId) (recovery : Int64)
    (progress : Progress) : Prop where
  there : ∃ registered, service.targets[recovery]? = some registered ∧
    registered.target.shard = shard ∧ progress = service.leaving recovery registered call
  gone : (service.answered call).targets[recovery]? = none

/-- What the books say of a service in whose run every shard is registered once. -/
structure Orderly (service : Service) : Prop where
  placed : service.Placed
  going : ∀ (recovery : Int64) (registered : Registered),
    service.targets[recovery]? = some registered →
      registered.target.progress.isTerminal = false
  current : service.registry.IsCurrent
  numbered : ∀ recovery, service.registry.owner recovery ≠ none → service.HasIssued recovery
  spent : ∀ shard recovery progress,
    service.registry.finished shard = some (recovery, progress) → service.IsSpent recovery
  apart : service.registry.IsApart

/-- What a call enters in the books. -/
inductive Records (service : Service) (call : Call) : Prop where
  | idle (same : (service.answered call).registry = service.registry)
  | started {shard : ShardId} {recovery : Int64} (out : service.handsOut call = some recovery)
      (free : service.registry.active shard = none)
      (entered : (service.answered call).registry = service.registry.enter shard recovery)
  | ended {shard : ShardId} {recovery : Int64} {progress : Progress}
      (ends : service.Ends call shard recovery progress) (past : progress.isTerminal = true)
      (entered : (service.answered call).registry =
        service.registry.finish shard recovery progress)
  | replaced {shard : ShardId} {previous recovery : Int64} {progress : Progress}
      (ends : service.Ends call shard previous progress) (past : progress.isTerminal = true)
      (out : service.handsOut call = some recovery)
      (entered : (service.answered call).registry =
        (service.registry.finish shard previous progress).enter shard recovery)
  | forgotten {shard : ShardId} {recovery : Int64} {progress : Progress}
      (same : call = .event (.remove recovery)) (told : (service.remove recovery).1 = true)
      (kept : service.registry.finished shard = some (recovery, progress))
      (entered : (service.answered call).registry = service.registry.forget shard)

variable {service : Service} {call : Call} {shard : ShardId} {recovery : Int64}
  {registered : Registered} {progress : Progress}

theorem owner_eq_some :
    service.registry.owner recovery = some shard ↔
      ∃ registered, service.targets[recovery]? = some registered ∧
        registered.target.shard = shard :=
  Option.map_eq_some_iff

theorem owner_eq_none :
    service.registry.owner recovery = none ↔ service.targets[recovery]? = none :=
  Option.map_eq_none_iff

/-- The last state of a recovery does not depend on how the end is told. -/
theorem Ends.unique {other : ShardId} {state : Progress}
    (ends : service.Ends call shard recovery progress)
    (also : service.Ends call other recovery state) : shard = other ∧ progress = state := by
  obtain ⟨⟨registered, there, rfl, rfl⟩, _⟩ := ends
  obtain ⟨⟨found, thereToo, rfl, rfl⟩, _⟩ := also
  rw [there] at thereToo
  cases thereToo
  exact ⟨rfl, rfl⟩

namespace Orderly

theorem active (orderly : service.Orderly) (there : service.targets[recovery]? = some registered) :
    service.activeOf registered.target.shard = some recovery :=
  (orderly.current _ recovery).mp (owner_eq_some.mpr ⟨registered, there, rfl⟩)

theorem registered_of_active (orderly : service.Orderly)
    (active : service.activeOf shard = some recovery) :
    ∃ registered, service.targets[recovery]? = some registered ∧ registered.target.shard = shard :=
  owner_eq_some.mp ((orderly.current shard recovery).mpr active)

/-- A request changes nothing in the books, or it ends the recovery that it is for. -/
theorem registry_handle (orderly : service.Orderly) (request : Request) :
    (service.handle request).2.registry = service.registry ∨
      ∃ registered, service.targets[request.recovery]? = some registered ∧
        ((service.receiver registered).handle request).2.isOver = true ∧
        (service.handle request).2.registry =
          service.registry.finish registered.target.shard request.recovery
            ((service.receiver registered).handle request).2.target.progress := by
  by_cases known : ∃ registered, service.targets[request.recovery]? = some registered ∧
      registered.target.shard = request.shard
  · obtain ⟨registered, there, own⟩ := known
    have moved := (Receiver.answer_handle (service.receiver registered) request).shard
    have worked := registry_worked there moved
    rw [handle_of_registered there own]
    dsimp only
    split
    · next ended =>
        refine .inr ⟨registered, there, ended, ?_⟩
        have entry := (targets_worked service request.recovery request.recovery registered
          ((service.receiver registered).handle request).2).trans (if_pos rfl)
        rw [registry_retire entry, worked]
        · dsimp only
          rw [moved]
          rfl
        · dsimp only
          rw [moved]
          exact orderly.active there
    · exact .inl worked
  · refine .inl (congrArg registry (handle_of_stray ?_).1)
    exact fun registered there own => known ⟨registered, there, own⟩

theorem records_of_handle (orderly : service.Orderly) (request : Request)
    (same : service.answered call = (service.handle request).2)
    (leaves : ∀ registered, service.leaving request.recovery registered call =
      ((service.receiver registered).handle request).2.target.progress) :
    service.Records call := by
  rcases orderly.registry_handle request with kept | ⟨registered, there, ended, entered⟩
  · exact .idle (same ▸ kept)
  · rw [← same, ← leaves] at entered
    refine .ended ⟨⟨registered, there, rfl, rfl⟩, ?_⟩ ?_ entered
    · rw [← owner_eq_none, entered]
      exact Function.update_self ..
    · rw [leaves]
      exact ended

/-- The active recovery of a shard makes way for another one, and is cancelled. -/
theorem registry_superseded (orderly : service.Orderly) (shard : ShardId) :
    (service.registry.active shard = none ∧
      (service.superseded shard).registry = service.registry) ∨
    ∃ previous registered progress, service.targets[previous]? = some registered ∧
      registered.target.shard = shard ∧ progress.isTerminal = true ∧
      (∀ source, progress =
        service.leaving previous registered (.event (.start shard source))) ∧
      (service.superseded shard).registry =
        service.registry.finish shard previous progress := by
  cases active : service.activeOf shard with
  | none =>
      refine .inl ⟨active, ?_⟩
      rcases supersede_cases { service with issued := service.issued + 1 } shard
          (.ofNat (service.issued + 1)) with
        ⟨_, same⟩ | ⟨_, other, _⟩ | ⟨_, _, _, _, other, _⟩
      · rw [superseded, same]
        rfl
      · cases active.symm.trans other
      · cases active.symm.trans other
  | some previous =>
      obtain ⟨registered, there, own⟩ := orderly.registered_of_active active
      exact .inr ⟨previous, registered, _, there, own, isOver_displaced .., fun source => rfl,
        @registry_supersede { service with issued := service.issued + 1 } _ _ _ active there _⟩

/-- A shard that has no active recovery is given one. -/
theorem registry_started {shard : ShardId} {source : NodeId} {start : StartRequest}
    {place : Place}
    (started : service.startRecovery shard source = (.ok start,
      (service.superseded shard).opened shard start.recovery
        { target := { recovery := start.recovery, shard }, place })) :
    (service.answered (.event (.start shard source))).registry =
      (service.superseded shard).registry.enter shard start.recovery := by
  obtain ⟨_, hosted, _⟩ := startRecovery_ok started
  simp only [answered, after, started]
  refine registry_opened ?_ rfl start.recovery
  rw [slotPlace_superseded, hosted]
  exact Option.some_ne_none _

theorem records_start (orderly : service.Orderly) (shard : ShardId) (source : NodeId)
    (lasting : (service.answered (.event (.start shard source))).issued < 2 ^ 64) :
    service.Records (.event (.start shard source)) := by
  have books := orderly.registry_superseded shard
  rcases startRecovery_outcome service shard source with
    ⟨_, error, started⟩ | ⟨error, started⟩ | ⟨start, place, started⟩
  · refine .idle ?_
    simp only [answered, after, started]
  · have result : service.answered (.event (.start shard source)) = service.superseded shard := by
      simp only [answered, after, started]
    rcases books with ⟨_, same⟩ | ⟨previous, registered, progress, there, own, past, leaves, same⟩
    · exact .idle (result ▸ same)
    · rw [← result] at same
      refine .ended ⟨⟨registered, there, own, leaves source⟩, ?_⟩ past same
      rw [← owner_eq_none, same]
      exact Function.update_self ..
  · have out : service.handsOut (.event (.start shard source)) = some start.recovery := by
      rw [handsOut, started]
      rfl
    have entered := registry_started started
    rcases books with ⟨free, same⟩ | ⟨previous, registered, progress, there, own, past, leaves, same⟩
    · rw [same] at entered
      exact .started out free entered
    · rw [same] at entered
      refine .replaced ⟨⟨registered, there, own, leaves source⟩, ?_⟩ past out entered
      have numbered := orderly.numbered previous (by
        rw [Ne, owner_eq_none, there]
        exact Option.some_ne_none _)
      have differ := numbered.ne_of_handsOut out lasting
      rw [← owner_eq_none, entered]
      refine (Function.update_of_ne differ ..).trans ?_
      exact Function.update_self ..

/-- What a call enters in the books, if it registers no shard again. -/
theorem records (orderly : service.Orderly)
    (fresh : ∀ shard, call.registers? = some shard → service.slots[shard]? = none)
    (lasting : (service.answered call).issued < 2 ^ 64) : service.Records call := by
  cases call with
  | frame input =>
      cases decoded : Request.decode input with
      | error error =>
          refine .idle (congrArg registry ?_)
          rw [answered, handleBytes, decoded]
      | ok request =>
          refine orderly.records_of_handle request ?_ fun registered => ?_
          · rw [answered, handleBytes, decoded]
          · rw [leaving, decoded]
  | event event =>
      cases event with
      | register shard store engine => exact .idle (registry_register (fresh shard rfl) store engine)
      | modify store change => exact .idle rfl
      | elsewhere => exact .idle rfl
      | handle request => exact orderly.records_of_handle request rfl fun _ => rfl
      | start shard source => exact orderly.records_start shard source lasting
      | remove recovery =>
          cases there : service.targets[recovery]? with
          | some registered =>
              refine .idle (congrArg registry ?_)
              have going := orderly.going recovery registered there
              simp only [answered, after, remove, there, going, Bool.false_eq_true, if_false]
          | none =>
              have forgets : service.remove recovery = service.forget recovery := by
                rw [remove, there]
              rcases forget_cases service recovery with
                ⟨same, _⟩ | ⟨shard, progress, kept, told, entered⟩
              · refine .idle (congrArg registry ?_)
                simp only [answered, after, forgets, same]
              · rw [← forgets] at told entered
                exact .forgotten rfl told kept entered

/-- The books stay in order. -/
theorem answered (orderly : service.Orderly) (records : service.Records call)
    (lasting : (service.answered call).issued < 2 ^ 64)
    (placed : (service.answered call).Placed)
    (going : ∀ (recovery : Int64) (registered : Registered),
      (service.answered call).targets[recovery]? = some registered →
        registered.target.progress.isTerminal = false) :
    (service.answered call).Orderly := by
  have fresh {next : Int64} (out : service.handsOut call = some next) :
      service.registry.owner next = none := by
    by_contra there
    exact (orderly.numbered next there).ne_of_handsOut out lasting rfl
  have unkept {shard : ShardId} {recovery : Int64} {progress : Progress}
      (ends : service.Ends call shard recovery progress) (other : ShardId) (state : Progress) :
      service.registry.finished other ≠ some (recovery, state) := by
    intro kept
    obtain ⟨⟨registered, there, _⟩, _⟩ := ends
    rw [(orderly.spent other recovery state kept).gone] at there
    cases there
  have own {shard : ShardId} {recovery : Int64} {progress : Progress}
      (ends : service.Ends call shard recovery progress) :
      service.registry.owner recovery = some shard := by
    obtain ⟨⟨registered, there, same, _⟩, _⟩ := ends
    exact owner_eq_some.mpr ⟨registered, there, same⟩
  have numbered (recovery : Int64)
      (there : (service.answered call).registry.owner recovery ≠ none) :
      (service.answered call).HasIssued recovery := by
    rw [Ne, owner_eq_none] at there
    rcases registered_answered orderly.placed there with before | out
    · exact (orderly.numbered recovery fun none => before (owner_eq_none.mp none)).answered call
    · exact hasIssued_of_handsOut out
  have spent (shard : ShardId) (recovery : Int64) (progress : Progress)
      (kept : service.registry.finished shard = some (recovery, progress)) :
      (service.answered call).IsSpent recovery :=
    (orderly.spent shard recovery progress kept).answered orderly.placed lasting
  have entered {shard : ShardId} {recovery : Int64} {progress : Progress}
      (ends : service.Ends call shard recovery progress) (other : ShardId) (number : Int64)
      (state : Progress)
      (kept : (service.registry.finish shard recovery progress).finished other =
        some (number, state)) : (service.answered call).IsSpent number := by
    simp only [Registry.finish, Function.update_apply] at kept
    split at kept
    · cases kept
      obtain ⟨registered, there, _⟩ := ends.there
      have issued := orderly.numbered recovery (by
        rw [own ends]
        exact Option.some_ne_none _)
      exact ⟨issued.answered call, ends.gone⟩
    · exact spent other number state kept
  cases records with
  | idle same =>
      refine ⟨placed, going, ?_, numbered, ?_, ?_⟩ <;> rw [same]
      · exact orderly.current
      · exact spent
      · exact orderly.apart
  | started out free entered =>
      refine ⟨placed, going, ?_, numbered, ?_, ?_⟩ <;> rw [entered]
      · exact orderly.current.enter free (fresh out)
      · exact spent
      · exact orderly.apart
  | ended ends past same =>
      refine ⟨placed, going, ?_, numbered, ?_, ?_⟩ <;> rw [same]
      · exact orderly.current.finish (own ends) _
      · exact entered ends
      · exact orderly.apart.finish (unkept ends) _ _
  | replaced ends past out same =>
      refine ⟨placed, going, ?_, numbered, ?_, ?_⟩ <;> rw [same]
      · refine (orderly.current.finish (own ends) _).enter ?_ ?_
        · exact Function.update_self ..
        · simp only [Registry.finish, Function.update_apply, fresh out, ite_self]
      · exact entered ends
      · exact orderly.apart.finish (unkept ends) _ _
  | forgotten _ _ _ same =>
      refine ⟨placed, going, ?_, numbered, ?_, ?_⟩ <;> rw [same]
      · exact orderly.current
      · intro other number state kept
        simp only [Registry.forget, Function.update_apply] at kept
        split at kept
        · cases kept
        · exact spent other number state kept
      · exact orderly.apart.forget _

end Orderly

/-- Every shard is registered at most once. -/
def RegistersOnce (calls : List Call) : Prop := (calls.filterMap Call.registers?).Nodup

theorem slots_fresh {node : NodeId} {calls : List Call} {call : Call}
    (once : RegistersOnce (calls ++ [call])) (shard : ShardId)
    (registers : call.registers? = some shard) : (serving node calls).slots[shard]? = none := by
  by_contra known
  obtain ⟨slot, known⟩ := Option.ne_none_iff_exists'.mp known
  have slot : (serving node calls).slotPlace shard = some slot.place := by
    rw [slotPlace, known, Option.map_some]
  obtain ⟨earlier, member, engine, rfl⟩ := (housed_serving node calls).slots shard _ slot
  rw [RegistersOnce, List.filterMap_append, List.nodup_append] at once
  exact once.2.2 shard (List.mem_filterMap.mpr ⟨_, member, rfl⟩) shard
    (List.mem_filterMap.mpr ⟨call, List.mem_singleton_self call, registers⟩) rfl

theorem RegistersOnce.earlier {calls later : List Call} (once : RegistersOnce (calls ++ later)) :
    RegistersOnce calls := by
  rw [RegistersOnce, List.filterMap_append] at once
  exact once.of_append_left

theorem orderly_serving {node : NodeId} {calls : List Call} (once : RegistersOnce calls)
    (lasting : (serving node calls).issued < 2 ^ 64) : (serving node calls).Orderly := by
  induction calls using List.reverseRecOn with
  | nil =>
      constructor
      · exact placed_empty node
      · simp [serving]
      · simp [serving, Registry.IsCurrent, registry, activeOf]
      · simp [serving, registry]
      · simp [serving, registry, finishedOf]
      · simp [serving, Registry.IsApart, registry, finishedOf]
  | append_singleton calls call ih =>
      have accounted := Roster.accounted_run node (calls ++ [call])
      have placed := accounted.placed
      have going := accounted.going
      rw [service_run] at placed going
      rw [serving_concat] at lasting placed going ⊢
      have orderly := ih once.earlier ((issued_le_answered _ call).trans_lt lasting)
      exact orderly.answered (orderly.records (slots_fresh once) lasting) lasting placed going

theorem Orderly.records_serving {node : NodeId} {calls : List Call} {call : Call}
    (once : RegistersOnce (calls ++ [call]))
    (lasting : (serving node (calls ++ [call])).issued < 2 ^ 64) :
    (serving node calls).Orderly ∧ (serving node calls).Records call := by
  rw [serving_concat] at lasting
  have orderly := orderly_serving once.earlier ((issued_le_answered _ call).trans_lt lasting)
  exact ⟨orderly, orderly.records (slots_fresh once) lasting⟩

namespace Records

/-- A recovery that ends is entered with its last state. -/
theorem finished (records : service.Records call)
    (ends : service.Ends call shard recovery progress) :
    (service.answered call).registry.finished shard = some (recovery, progress) ∧
      progress.isTerminal = true := by
  have gone := owner_eq_none.mpr ends.gone
  have there : service.registry.owner recovery = some shard := by
    obtain ⟨registered, there, same, _⟩ := ends.there
    exact owner_eq_some.mpr ⟨registered, there, same⟩
  have only {other : ShardId} {number : Int64} {state : Progress}
      (also : service.Ends call other number state)
      (dropped : Function.update service.registry.owner number none recovery = none ∨
        recovery = number) :
      number = recovery ∧ other = shard ∧ state = progress := by
    have same : recovery = number := by
      by_contra differ
      rcases dropped with none | same
      · rw [Function.update_of_ne differ, there] at none
        cases none
      · exact differ same
    subst same
    exact ⟨rfl, also.unique ends⟩
  cases records with
  | idle same =>
      rw [same, there] at gone
      cases gone
  | started out _ entered =>
      rw [entered, Registry.enter] at gone
      dsimp only at gone
      rw [Function.update_apply, there] at gone
      split at gone <;> cases gone
  | ended also past entered =>
      rw [entered] at gone ⊢
      obtain ⟨rfl, rfl, rfl⟩ := only also (.inl gone)
      exact ⟨Function.update_self .., past⟩
  | replaced also past out entered =>
      rw [entered] at gone ⊢
      obtain ⟨rfl, rfl, rfl⟩ := only also (by
        simp only [Registry.enter, Registry.finish, Function.update_apply] at gone ⊢
        split at gone
        · cases gone
        · exact .inl gone)
      exact ⟨Function.update_self .., past⟩
  | forgotten _ _ _ entered =>
      rw [entered] at gone
      rw [show (service.registry.forget _).owner = service.registry.owner from rfl, there] at gone
      cases gone

/-- What is entered stays until another recovery of the shard ends, or it is removed. -/
theorem keeps (records : service.Records call)
    (kept : service.registry.finished shard = some (recovery, progress))
    (last : ∀ other state, ¬ service.Ends call shard other state)
    (held : call = .event (.remove recovery) → (service.remove recovery).1 = false) :
    (service.answered call).registry.finished shard = some (recovery, progress) := by
  have elsewhere {other : ShardId} {number : Int64} {state : Progress}
      (also : service.Ends call other number state) : shard ≠ other := by
    rintro rfl
    exact last _ _ also
  cases records with
  | idle same => rwa [same]
  | started _ _ entered => rwa [entered]
  | ended also _ entered =>
      rw [entered]
      exact (Function.update_of_ne (elsewhere also) ..).trans kept
  | replaced also _ _ entered =>
      rw [entered]
      exact (Function.update_of_ne (elsewhere also) ..).trans kept
  | @forgotten other number state same told entry entered =>
      have differ : shard ≠ other := by
        rintro rfl
        rw [kept] at entry
        cases entry
        rw [held same] at told
        cases told
      rw [entered]
      exact (Function.update_of_ne differ ..).trans kept

end Records

/-- None of the calls ends a recovery of the shard, and none removes the given one. -/
def Retains (service : Service) (shard : ShardId) (recovery : Int64) : List Call → Prop
  | [] => True
  | call :: calls =>
      (∀ other state, ¬ service.Ends call shard other state) ∧
        (call = .event (.remove recovery) → (service.remove recovery).1 = false) ∧
        (service.answered call).Retains shard recovery calls

theorem finished_serving {node : NodeId} {calls later : List Call}
    (once : RegistersOnce (calls ++ later))
    (lasting : (serving node (calls ++ later)).issued < 2 ^ 64)
    (kept : (serving node calls).registry.finished shard = some (recovery, progress))
    (retains : (serving node calls).Retains shard recovery later) :
    (serving node (calls ++ later)).registry.finished shard = some (recovery, progress) := by
  induction later generalizing calls with
  | nil => rwa [List.append_nil]
  | cons call later ih =>
      rw [List.append_cons] at once lasting ⊢
      obtain ⟨last, held, rest⟩ := retains
      have shorter := (issued_le_serving node (calls ++ [call]) later).trans_lt lasting
      obtain ⟨_, records⟩ := Orderly.records_serving once.earlier shorter
      refine ih once lasting ?_ ?_
      · rw [serving_concat]
        exact records.keeps kept last held
      · rwa [serving_concat]

/-- The recovery is over, and nothing is known of it any more. -/
structure HasForgotten (service : Service) (recovery : Int64) : Prop where
  spent : service.IsSpent recovery
  unknown : ∀ shard progress, service.registry.finished shard ≠ some (recovery, progress)

namespace Orderly

theorem remove_of_registered (orderly : service.Orderly)
    (there : service.targets[recovery]? = some registered) :
    service.remove recovery = (false, service) := by
  have going := orderly.going recovery registered there
  simp only [remove, there, going, Bool.false_eq_true, if_false]

/-- What is removed is forgotten. -/
theorem forgets (orderly : service.Orderly) (removed : (service.remove recovery).1 = true) :
    (service.answered (.event (.remove recovery))).HasForgotten recovery := by
  cases there : service.targets[recovery]? with
  | some registered =>
      rw [orderly.remove_of_registered there] at removed
      cases removed
  | none =>
      have forgets : service.remove recovery = service.forget recovery := by
        rw [remove, there]
      rcases forget_cases service recovery with ⟨same, _⟩ | ⟨shard, progress, kept, told, entered⟩
      · rw [forgets, same] at removed
        cases removed
      · rw [← forgets] at entered
        have spent := orderly.spent shard recovery progress kept
        have gone := congrArg (·.owner recovery) entered
        refine ⟨⟨spent.issued.answered _, ?_⟩, fun other state still => ?_⟩
        · exact owner_eq_none.mp (gone.trans (owner_eq_none.mpr spent.gone))
        · have left : (service.registry.forget shard).finished other = some (recovery, state) :=
            (congrArg (·.finished other) entered).symm.trans still
          simp only [Registry.forget, Function.update_apply] at left
          split at left
          · cases left
          · next differ => exact differ (orderly.apart shard other _ _ _ kept left)

end Orderly

namespace HasForgotten

theorem remove (forgotten : service.HasForgotten recovery) : (service.remove recovery).1 = false := by
  rw [Service.remove, forgotten.spent.gone]
  rcases forget_cases service recovery with ⟨same, _⟩ | ⟨shard, progress, kept, _⟩
  · rw [same]
  · exact absurd kept (forgotten.unknown shard progress)

theorem answered (forgotten : service.HasForgotten recovery) (placed : service.Placed)
    (records : service.Records call) (lasting : (service.answered call).issued < 2 ^ 64) :
    (service.answered call).HasForgotten recovery := by
  refine ⟨forgotten.spent.answered placed lasting, fun other state kept => ?_⟩
  have unended {shard : ShardId} {number : Int64} {progress : Progress}
      (ends : service.Ends call shard number progress) : number ≠ recovery := by
    rintro rfl
    obtain ⟨registered, there, _⟩ := ends.there
    rw [forgotten.spent.gone] at there
    cases there
  have unknown := forgotten.unknown other state
  cases records with
  | idle same => exact unknown (same ▸ kept)
  | started _ _ entered =>
      rw [entered] at kept
      exact unknown kept
  | ended ends _ entered =>
      have differ := unended ends
      simp only [entered, Registry.finish, Function.update_apply] at kept
      grind
  | replaced ends _ _ entered =>
      have differ := unended ends
      simp only [entered, Registry.enter, Registry.finish, Function.update_apply] at kept
      grind
  | forgotten _ _ _ entered =>
      simp only [entered, Registry.forget, Function.update_apply] at kept
      grind

theorem serving {node : NodeId} {calls later : List Call} (once : RegistersOnce (calls ++ later))
    (lasting : (Service.serving node (calls ++ later)).issued < 2 ^ 64)
    (forgotten : (Service.serving node calls).HasForgotten recovery) :
    (Service.serving node (calls ++ later)).HasForgotten recovery := by
  induction later using List.reverseRecOn with
  | nil => rwa [List.append_nil]
  | append_singleton later call ih =>
      rw [← List.append_assoc] at once lasting ⊢
      obtain ⟨orderly, records⟩ := Orderly.records_serving once lasting
      rw [serving_concat] at lasting ⊢
      have before := ih once.earlier ((issued_le_answered _ call).trans_lt lasting)
      exact before.answered orderly.placed records lasting

end HasForgotten

theorem openTargets_eq (orderly : service.Orderly) :
    service.openTargets = service.activeRecoveries := by
  have length : service.targets.values.length = service.targets.size := by
    rw [values_eq_map_toList, List.length_map, Std.ExtTreeMap.length_toList]
  rw [openTargets, activeRecoveries, ← length, eq_comm, List.countP_eq_length]
  intro registered listed
  rw [values_eq_map_toList] at listed
  obtain ⟨⟨recovery, found⟩, member, rfl⟩ := List.mem_map.mp listed
  have there := Std.ExtTreeMap.mem_toList_iff_getElem?_eq_some.mp member
  simp [orderly.going recovery found there]

/-- The books of a service whose shards have each been registered once, at any time before
the numbers are exhausted. -/
theorem bookkeeping (node : NodeId) (calls : List Call) (once : RegistersOnce calls)
    (lasting : (serving node calls).issued < 2 ^ 64) :
    let service := serving node calls
    ((∀ (recovery : Int64) (registered : Registered),
        service.targets[recovery]? = some registered →
          registered.target.progress.isTerminal = false) ∧
      service.openTargets = service.activeRecoveries) ∧
    (∀ shard recovery, (∃ registered, service.targets[recovery]? = some registered ∧
        registered.target.shard = shard) ↔ service.activeOf shard = some recovery) ∧
    (∀ earlier call later shard recovery progress, calls = earlier ++ [call] ++ later →
      (serving node earlier).Ends call shard recovery progress →
      (serving node (earlier ++ [call])).Retains shard recovery later →
        service.progress? recovery = some progress ∧ progress.isTerminal = true) ∧
    (∀ earlier later recovery, calls = earlier ++ [.event (.remove recovery)] ++ later →
      ((serving node earlier).remove recovery).1 = true →
        (service.remove recovery).1 = false) ∧
    ∀ recovery, service.targets[recovery]? ≠ none → (service.remove recovery).1 = false := by
  have orderly := orderly_serving once lasting
  refine ⟨⟨orderly.going, openTargets_eq orderly⟩, ?current, ?ended, ?removed, ?running⟩
  case current =>
    intro shard recovery
    rw [← owner_eq_some]
    exact orderly.current shard recovery
  case ended =>
    rintro earlier call later shard recovery progress rfl ends retains
    have shorter := (issued_le_serving node (earlier ++ [call]) later).trans_lt lasting
    obtain ⟨_, records⟩ := Orderly.records_serving once.earlier shorter
    obtain ⟨entered, past⟩ := records.finished ends
    rw [← serving_concat] at entered
    have kept := finished_serving once lasting entered retains
    refine ⟨progress?_of_finished (orderly.spent _ _ _ kept).gone kept ?_, past⟩
    exact fun other found also => orderly.apart _ _ _ _ _ kept also
  case removed =>
    rintro earlier later recovery rfl removed
    have shorter := (issued_le_serving node (earlier ++ [_]) later).trans_lt lasting
    obtain ⟨before, _⟩ := Orderly.records_serving once.earlier shorter
    have forgotten := before.forgets removed
    rw [← serving_concat] at forgotten
    exact (HasForgotten.serving once lasting forgotten).remove
  case running =>
    intro recovery there
    obtain ⟨registered, found⟩ := Option.ne_none_iff_exists'.mp there
    rw [orderly.remove_of_registered found]

open Watched (receivingNode)
open Roster (startedOnce)

def startsAgain : Call := .event (.start default receivingNode)

/-- A recovery that has been superseded is kept while its successor is going on, and is
removed only once. -/
theorem bookkeeping_superseded :
    (∃ progress, (serving receivingNode (startedOnce ++ [startsAgain] ++
        [.event (.remove 2)])).progress? 1 = some progress ∧ progress.isTerminal = true) ∧
      ((serving receivingNode (startedOnce ++ [startsAgain])).remove 1).1 = true ∧
      ((serving receivingNode (startedOnce ++ [startsAgain] ++
        [.event (.remove 1)] ++ [])).remove 1).1 = false := by
  obtain ⟨_, _, kept, _, _⟩ := bookkeeping receivingNode
    (startedOnce ++ [startsAgain] ++ [.event (.remove 2)]) (by unfold RegistersOnce; decide)
    (by decide +kernel)
  obtain ⟨_, _, _, once, _⟩ := bookkeeping receivingNode
    (startedOnce ++ [startsAgain] ++ [.event (.remove 1)] ++ []) (by unfold RegistersOnce; decide)
    (by decide +kernel)
  have removed : ((serving receivingNode (startedOnce ++ [startsAgain])).remove 1).1 = true := by
    decide +kernel
  refine ⟨?kept, removed, once _ _ 1 rfl removed⟩
  have there : (serving receivingNode startedOnce).IsActive default 1 := by decide +kernel
  have gone : ((serving receivingNode startedOnce).answered startsAgain).targets[
      (1 : Int64)]?.isNone = true := by
    decide +kernel
  have going : (serving receivingNode (startedOnce ++ [startsAgain])).IsActive default 2 := by
    decide +kernel
  obtain ⟨registered, found, own, _⟩ := there
  have running : (serving receivingNode (startedOnce ++ [startsAgain])).remove 2 =
      (false, serving receivingNode (startedOnce ++ [startsAgain])) := by
    obtain ⟨other, there, _, active⟩ := going
    simp only [remove, there, active, Bool.false_eq_true, if_false]
  have ends : (serving receivingNode startedOnce).Ends startsAgain default 1 _ :=
    ⟨⟨registered, found, own, rfl⟩, Option.isNone_iff_eq_none.mp gone⟩
  have retains : (serving receivingNode (startedOnce ++ [startsAgain])).Retains default 1
      [.event (.remove 2)] := by
    refine ⟨?_, fun same => ?_, trivial⟩
    · rintro other state ⟨⟨kept, there, _⟩, gone⟩
      rw [answered, after, running, there] at gone
      cases gone
    · simp only [Call.event.injEq, Event.remove.injEq] at same
      exact absurd same (by decide)
  exact ⟨_, kept startedOnce startsAgain _ default 1 _ rfl ends retains⟩

end Service

end ShardSync.Recovery
