import ShardSync.Proofs.Recovery.Standing

/-!
# The active recovery of a shard

A recovery that is started ends the one that its shard has as the active one. A shard
that is registered again has none, although a recovery of it may be going on, which is
outdated from then on: nothing that is started later ends it. So no shard ever has two
active recoveries exactly if none is started beside an outdated one.
-/

set_option autoImplicit false

namespace ShardSync.Recovery

/-- What reaches a service: an event, or a request as it was written. -/
inductive Call where
  | event (event : Event)
  | frame (input : Bytes)

namespace Service

/-- The recovery is registered for the shard, and is not over. -/
def IsActive (service : Service) (shard : ShardId) (recovery : Int64) : Prop :=
  ∃ registered, service.targets[recovery]? = some registered ∧
    registered.target.shard = shard ∧ registered.target.progress.isTerminal = false

theorem isActive_iff {service : Service} {shard : ShardId} {recovery : Int64} :
    service.IsActive shard recovery ↔ (service.targets[recovery]?.any fun registered =>
      registered.target.shard = shard ∧
        registered.target.progress.isTerminal = false) = true := by
  simp [IsActive, Option.any_eq_true]

instance (service : Service) (shard : ShardId) (recovery : Int64) :
    Decidable (service.IsActive shard recovery) :=
  decidable_of_iff _ isActive_iff.symm

def Exclusive (service : Service) : Prop :=
  ∀ shard first second, service.IsActive shard first → service.IsActive shard second →
    first = second

/-- A recovery of the shard is started with the number. -/
def Opens (service : Service) (shard : ShardId) (source : NodeId) (recovery : Int64) : Prop :=
  ∃ start, (service.startRecovery shard source).1 = .ok start ∧ start.recovery = recovery

def answered (service : Service) : Call → Service
  | .event event => service.after event
  | .frame input => (service.handleBytes input).2

/-- Only recoveries that were active before are the active ones of their shards. -/
def ActivatesNone (before after : Service) : Prop :=
  ∀ shard recovery, after.activeOf shard = some recovery →
    before.activeOf shard = some recovery

theorem activeOf_modifySlot (service : Service) (shard other : ShardId) (change : Slot → Slot) :
    (service.modifySlot shard change).activeOf other =
      if shard = other then service.slots[other]?.bind fun slot => (change slot).active?
      else service.activeOf other := by
  rw [activeOf, slots_modifySlot]
  split
  · rw [Option.bind_map]
    rfl
  · rfl

theorem finishedOf_modifySlot (service : Service) (shard other : ShardId)
    (change : Slot → Slot) :
    (service.modifySlot shard change).finishedOf other =
      if shard = other then service.slots[other]?.bind fun slot => (change slot).finished?
      else service.finishedOf other := by
  rw [finishedOf, slots_modifySlot]
  split
  · rw [Option.bind_map]
    rfl
  · rfl

theorem activeOf_annotate {service : Service} {shard other : ShardId} {change : Slot → Slot}
    (same : ∀ slot, (change slot).active? = slot.active?) :
    (service.modifySlot shard change).activeOf other = service.activeOf other := by
  rw [activeOf_modifySlot, funext same]
  exact ite_self _

theorem activatesNone_modifySlot {service : Service} {shard : ShardId} {change : Slot → Slot}
    (clears : ∀ slot, (change slot).active? = none ∨ (change slot).active? = slot.active?) :
    ActivatesNone service (service.modifySlot shard change) := by
  intro other recovery found
  rw [activeOf_modifySlot] at found
  split at found
  · obtain ⟨slot, known, running⟩ := Option.bind_eq_some_iff.mp found
    rcases clears slot with none | same
    · rw [none] at running
      cases running
    · rw [same] at running
      exact Option.bind_eq_some_iff.mpr ⟨slot, known, running⟩
  · exact found

theorem activatesNone_retire (service : Service) (recovery : Int64) :
    ActivatesNone service (service.retire recovery) := by
  unfold retire
  cases service.targets[recovery]? with
  | none => exact fun _ _ found => found
  | some registered =>
      refine @activatesNone_modifySlot { service with
        targets := service.targets.erase recovery } _ _ fun slot => ?_
      dsimp only
      split
      · exact .inl rfl
      · exact .inr rfl

theorem activatesNone_forget (service : Service) (recovery : Int64) :
    ActivatesNone service (service.forget recovery).2 := by
  unfold forget
  split
  · exact fun _ _ found => found
  · exact activatesNone_modifySlot fun _ => .inr rfl

theorem activatesNone_remove (service : Service) (recovery : Int64) :
    ActivatesNone service (service.remove recovery).2 := by
  unfold remove
  split
  · exact activatesNone_forget service recovery
  · split
    · exact fun shard other found => activatesNone_retire service recovery shard other
        (activatesNone_forget _ recovery shard other found)
    · exact fun _ _ found => found

/-- The shard of a recovery that made way for a new one has none until that is started. -/
theorem activeOf_superseded (service : Service) (shard other : ShardId) :
    (service.superseded shard).activeOf other =
      if shard = other then none else service.activeOf other := by
  have cleared :
      (service.modifySlot shard fun slot => { slot with active? := none }).activeOf other =
        if shard = other then none else service.activeOf other := by
    rw [activeOf_modifySlot]
    split
    · exact Option.bind_fun_none _
    · rfl
  rcases supersede_cases { service with issued := service.issued + 1 } shard
      (.ofNat (service.issued + 1)) with
    ⟨inactive, same⟩ | ⟨previous, _, _, same⟩ |
      ⟨previous, registered, receiver, finished, _, _, same⟩
  · rw [superseded, same]
    split
    · next own =>
        rw [← own]
        exact inactive
    · rfl
  · rw [superseded, same]
    exact cleared
  · rw [superseded, same]
    refine (activeOf_annotate ?_).trans cleared
    exact fun _ => rfl

theorem activatesNone_superseded (service : Service) (shard : ShardId) :
    ActivatesNone service (service.superseded shard) := by
  intro other recovery found
  rw [activeOf_superseded] at found
  split at found
  · cases found
  · exact found

/-- Only the active recovery of the shard makes way. -/
theorem targets_superseded {service : Service} {shard : ShardId} {recovery : Int64}
    (other : service.activeOf shard ≠ some recovery) :
    (service.superseded shard).targets[recovery]? = service.targets[recovery]? := by
  rcases supersede_cases { service with issued := service.issued + 1 } shard
      (.ofNat (service.issued + 1)) with
    ⟨_, same⟩ | ⟨previous, _, _, same⟩ | ⟨previous, registered, receiver, finished, active, _, same⟩
  · rw [superseded, same]
  · rw [superseded, same]
    rfl
  · have differ : previous ≠ recovery := by
      rintro rfl
      exact other active
    rw [superseded, same]
    exact (targets_without service previous recovery).trans (if_neg differ)

/-- A recovery of a shard that is hosted is started once the active one has made way. -/
theorem startRecovery_outcome (service : Service) (shard : ShardId) (source : NodeId) :
    (service.activeOf shard = none ∧
      ∃ error, service.startRecovery shard source = (.error error, service)) ∨
    (∃ error, service.startRecovery shard source = (.error error, service.superseded shard)) ∨
    ∃ start place, service.startRecovery shard source = (.ok start,
      (service.superseded shard).opened shard start.recovery
        { target := { recovery := start.recovery, shard }, place }) := by
  cases started : service.startRecovery shard source with
  | mk outcome after =>
      cases outcome with
      | ok start =>
          obtain ⟨place, _, _, _, _, _, rfl⟩ := startRecovery_ok started
          exact .inr (.inr ⟨start, place, rfl⟩)
      | error error =>
          unfold startRecovery at started
          cases found : service.slots[shard]? with
          | none =>
              rw [found] at started
              cases started
              refine .inl ⟨?_, _, rfl⟩
              rw [activeOf, found]
              rfl
          | some slot =>
              rw [found] at started
              dsimp only at started
              split at started
              · cases started
                exact .inr (.inl ⟨_, rfl⟩)
              · cases started

theorem targets_opened (service : Service) (shard : ShardId) (recovery other : Int64)
    (registered : Registered) :
    (service.opened shard recovery registered).targets[other]? =
      if recovery = other then some registered else service.targets[other]? :=
  targets_insert service recovery other registered

theorem activeOf_opened (service : Service) (shard other : ShardId) (recovery : Int64)
    (registered : Registered) :
    (service.opened shard recovery registered).activeOf other =
      if shard = other then service.slots[other]?.bind fun _ => some recovery
      else service.activeOf other :=
  activeOf_modifySlot _ shard other _

/-- A request changes nothing, or the target that it is for, which is dropped if it is over. -/
theorem handle_cases (service : Service) (request : Request) :
    (service.handle request).2 = service ∨
    ∃ registered after, service.targets[request.recovery]? = some registered ∧
      after.target.shard = registered.target.shard ∧
      ((after.isOver = false ∧
          (service.handle request).2 = service.worked request.recovery registered after) ∨
        (service.handle request).2 =
          (service.worked request.recovery registered after).retire request.recovery) := by
  by_cases known : ∃ registered, service.targets[request.recovery]? = some registered ∧
      registered.target.shard = request.shard
  · obtain ⟨registered, there, shard⟩ := known
    have answer := Receiver.answer_handle (service.receiver registered) request
    refine .inr ⟨registered, _, there, answer.shard, ?_⟩
    rw [handle_of_registered there shard]
    dsimp only
    split
    · exact .inr rfl
    · next going => exact .inl ⟨Bool.eq_false_of_not_eq_true going, rfl⟩
  · exact .inl (handle_of_stray fun registered there shard => known ⟨registered, there, shard⟩).1

theorem handleBytes_cases (service : Service) (input : Bytes) :
    (service.handleBytes input).2 = service ∨
      ∃ request, (service.handleBytes input).2 = (service.handle request).2 := by
  unfold handleBytes
  cases Request.decode input with
  | error error => exact .inl rfl
  | ok request => exact .inr ⟨request, rfl⟩

theorem Spares.isActive {before after : Service} (spares : Spares before after) {shard : ShardId}
    {recovery : Int64} (active : after.IsActive shard recovery) :
    before.IsActive shard recovery := by
  obtain ⟨registered, found, own, going⟩ := active
  exact ⟨registered, (spares recovery registered found).1, own, going⟩

end Service

/-- A service, and the recoveries whose shard has been registered again since they were
started. -/
structure Roster where
  service : Service
  outdated : Int64 → Bool := fun _ => false

namespace Roster

open Service (Shrinks Spares ActivatesNone)

def next (roster : Roster) (call : Call) : Roster where
  service := roster.service.answered call
  outdated :=
    match call with
    | .event (.register shard _ _) => fun recovery => roster.outdated recovery ||
        roster.service.targets[recovery]?.any (·.target.shard = shard)
    | .event (.start shard source) =>
        match (roster.service.startRecovery shard source).1 with
        | .ok start => fun recovery => recovery ≠ start.recovery && roster.outdated recovery
        | .error _ => roster.outdated
    | _ => roster.outdated

/-- What the calls of a run lead to, from a service that knows no shard. -/
def run (node : NodeId) (calls : List Call) : Roster :=
  calls.foldl next { service := { node } }

theorem run_concat (node : NodeId) (calls : List Call) (call : Call) :
    run node (calls ++ [call]) = (run node calls).next call := by
  rw [run, List.foldl_append]
  rfl

/-- Every recovery that is registered is going on. Either it is the active one of its
shard, or it is outdated. -/
structure Accounted (roster : Roster) : Prop where
  placed : roster.service.Placed
  going : ∀ (recovery : Int64) (registered : Registered),
    roster.service.targets[recovery]? = some registered →
      registered.target.progress.isTerminal = false
  current : ∀ (recovery : Int64) (registered : Registered),
    roster.service.targets[recovery]? = some registered →
      (roster.service.activeOf registered.target.shard = some recovery ↔
        roster.outdated recovery = false)

namespace Accounted

variable {roster : Roster}

theorem isActive_iff (accounted : roster.Accounted) {shard : ShardId} {recovery : Int64} :
    roster.service.IsActive shard recovery ↔ ∃ registered,
      roster.service.targets[recovery]? = some registered ∧ registered.target.shard = shard := by
  constructor
  · rintro ⟨registered, there, own, _⟩
    exact ⟨registered, there, own⟩
  · rintro ⟨registered, there, own⟩
    exact ⟨registered, there, own, accounted.going recovery registered there⟩

/-- A recovery that stays registered stays the active one of its shard. -/
theorem still {before after : Service} (shrinks : Shrinks before after)
    (activatesNone : ActivatesNone before after) {recovery : Int64} {registered : Registered}
    (there : after.targets[recovery]? = some registered) (shard : ShardId) :
    after.activeOf shard = some recovery ↔ before.activeOf shard = some recovery := by
  constructor
  · exact activatesNone shard recovery
  · intro active
    rcases shrinks.active shard recovery active with same | gone
    · exact same
    · rw [Service.placeOf_eq_some there] at gone
      cases gone

theorem spares {later : Roster} (accounted : roster.Accounted)
    (shrinks : Shrinks roster.service later.service)
    (spares : Spares roster.service later.service)
    (activatesNone : ActivatesNone roster.service later.service)
    (same : later.outdated = roster.outdated) : later.Accounted where
  placed := accounted.placed.shrinks shrinks
  going recovery registered found :=
    accounted.going recovery registered (spares recovery registered found).1
  current recovery registered found := by
    rw [still shrinks activatesNone found, same]
    exact accounted.current recovery registered (spares recovery registered found).1

theorem register (accounted : roster.Accounted) (shard : ShardId) (store : String)
    (engine : Engine) : (roster.next (.event (.register shard store engine))).Accounted where
  placed := Service.placed_register accounted.placed shard store engine
  going := accounted.going
  current recovery registered found := by
    have found : roster.service.targets[recovery]? = some registered := found
    change (roster.service.register shard store engine).activeOf registered.target.shard =
      some recovery ↔ (roster.outdated recovery ||
        roster.service.targets[recovery]?.any (·.target.shard = shard)) = false
    rw [Service.activeOf_register, found, Option.any_some, Bool.or_eq_false_iff, decide_eq_false_iff_not]
    split
    · next own =>
        simp only [own, not_true_eq_false, and_false, reduceCtorEq]
    · next other =>
        rw [and_iff_left fun own => other own.symm]
        exact accounted.current recovery registered found

/-- A recovery that is started is the active one of its shard. The others of that shard
that are registered had been outdated before. -/
theorem start (accounted : roster.Accounted) (shard : ShardId) (source : NodeId) :
    (roster.next (.event (.start shard source))).Accounted := by
  have shrinks := Service.shrinks_superseded accounted.placed shard
  have spares := Service.spares_superseded accounted.placed shard
  have activatesNone := Service.activatesNone_superseded roster.service shard
  rcases Service.startRecovery_outcome roster.service shard source with
    ⟨_, error, started⟩ | ⟨error, started⟩ | ⟨start, place, started⟩
  · refine accounted.spares ?_ ?_ ?_ ?_ <;>
      simp only [next, Service.answered, Service.after, started]
    · exact .refl _
    · exact .refl _
    · exact fun _ _ found => found
  · refine accounted.spares ?_ ?_ ?_ ?_ <;>
      simp only [next, Service.answered, Service.after, started]
    · exact shrinks
    · exact spares
    · exact activatesNone
  · have placed := Service.placed_startRecovery accounted.placed shard source
    rw [started] at placed
    obtain ⟨_, hosted, _⟩ := Service.startRecovery_ok started
    rw [← shrinks.slots shard, Service.slotPlace, Option.map_eq_some_iff] at hosted
    obtain ⟨slot, known, _⟩ := hosted
    constructor <;> simp only [next, Service.answered, Service.after, started]
    · exact placed
    · intro recovery registered found
      rw [Service.targets_opened] at found
      split at found
      · cases found
        rfl
      · exact accounted.going recovery registered (spares recovery registered found).1
    · intro recovery registered found
      rw [Service.targets_opened] at found
      rw [Service.activeOf_opened]
      split at found
      · next new =>
          cases found
          simp [known, new]
      · next old =>
          have before := accounted.current recovery registered (spares recovery registered found).1
          rw [← still shrinks activatesNone found] at before
          have number : recovery ≠ start.recovery := fun same => old same.symm
          rw [decide_eq_true number, Bool.true_and, ← before]
          split
          · next own =>
              rw [← own, known, Service.activeOf_superseded, if_pos rfl]
              simp [old]
          · rfl

theorem handle (accounted : roster.Accounted) (request : Request) :
    (roster.next (.event (.handle request))).Accounted := by
  rcases Service.handle_cases roster.service request with
    same | ⟨registered, after, there, shard, outcome⟩
  · refine accounted.spares ?_ ?_ ?_ rfl <;> simp only [next, Service.answered, Service.after, same]
    · exact .refl _
    · exact .refl _
    · exact fun _ _ found => found
  · have shrinks := Service.shrinks_worked accounted.placed there after
    have current (recovery : Int64) (spared : Registered)
        (found : (roster.service.worked request.recovery registered after).targets[recovery]? =
          some spared) :
        (roster.service.activeOf spared.target.shard = some recovery ↔
          roster.outdated recovery = false) := by
      rw [Service.targets_worked] at found
      split at found
      · next own =>
          cases found
          rw [← own, shard]
          exact accounted.current _ registered there
      · exact accounted.current recovery spared found
    rcases outcome with ⟨going, same⟩ | same
    · constructor <;> simp only [next, Service.answered, Service.after, same]
      · exact accounted.placed.shrinks shrinks
      · intro recovery spared found
        rw [Service.targets_worked] at found
        split at found
        · cases found
          exact going
        · exact accounted.going recovery spared found
      · exact current
    · have dropped := shrinks.trans (Service.shrinks_retire _ request.recovery)
      constructor <;> simp only [next, Service.answered, Service.after, same]
      · exact accounted.placed.shrinks dropped
      · intro recovery spared found
        rw [Service.retire, Service.targets_worked, if_pos rfl] at found
        obtain ⟨differ, between⟩ := Service.targets_erase found
        rw [Service.targets_worked, if_neg differ] at between
        exact accounted.going recovery spared between
      · intro recovery spared found
        rw [still dropped (Service.activatesNone_retire
          (roster.service.worked request.recovery registered after) request.recovery) found]
        exact current recovery spared (Service.spares_retire _ _ recovery spared found).1

end Accounted

theorem next_frame (roster : Roster) (input : Bytes) :
    roster.next (.frame input) = roster ∨
      ∃ request, roster.next (.frame input) = roster.next (.event (.handle request)) := by
  rcases Service.handleBytes_cases roster.service input with same | ⟨request, same⟩
  · refine .inl ?_
    simp only [next, Service.answered, same]
  · refine .inr ⟨request, ?_⟩
    simp only [next, Service.answered, Service.after, same]

theorem Accounted.next {roster : Roster} (accounted : roster.Accounted) (call : Call) :
    (roster.next call).Accounted := by
  cases call with
  | frame input =>
      rcases next_frame roster input with same | ⟨request, same⟩
      · rw [same]
        exact accounted
      · rw [same]
        exact accounted.handle request
  | event event =>
      cases event with
      | register shard store engine => exact accounted.register shard store engine
      | modify store change =>
          exact accounted.spares (.of_same rfl rfl rfl) (.refl _) (fun _ _ found => found) rfl
      | elsewhere =>
          exact accounted.spares (.of_same rfl rfl rfl) (.refl _) (fun _ _ found => found) rfl
      | start shard source => exact accounted.start shard source
      | remove recovery =>
          exact accounted.spares (Service.shrinks_remove _ recovery)
            (Service.spares_remove _ recovery) (Service.activatesNone_remove _ recovery) rfl
      | handle request => exact accounted.handle request

theorem accounted_run (node : NodeId) (calls : List Call) : (run node calls).Accounted := by
  induction calls using List.reverseRecOn with
  | nil =>
      exact ⟨Service.placed_empty node, fun recovery registered found => by simp [run] at found,
        fun recovery registered found => by simp [run] at found⟩
  | append_singleton calls call ih =>
      rw [run_concat]
      exact ih.next call

theorem isActive_handle {roster : Roster} {request : Request} {shard : ShardId} {recovery : Int64}
    (accounted : roster.Accounted)
    (active : (roster.next (.event (.handle request))).service.IsActive shard recovery) :
    roster.service.IsActive shard recovery := by
  simp only [next, Service.answered, Service.after] at active
  rcases Service.handle_cases roster.service request with
    same | ⟨registered, after, there, own, outcome⟩
  · rw [same] at active
    exact active
  · have worked : (roster.service.worked request.recovery registered after).IsActive shard
        recovery := by
      rcases outcome with ⟨_, same⟩ | same
      · rw [same] at active
        exact active
      · rw [same] at active
        exact (Service.spares_retire _ _).isActive active
    obtain ⟨remaining, found, shared, _⟩ := worked
    rw [Service.targets_worked] at found
    rw [accounted.isActive_iff]
    split at found
    · next same =>
        cases found
        exact ⟨registered, by rw [← same]; exact there, own.symm.trans shared⟩
    · exact ⟨remaining, found, shared⟩

/-- A recovery is active after a call if it was before, or if the call has started it. -/
theorem isActive_next {roster : Roster} {call : Call} {shard : ShardId} {recovery : Int64}
    (accounted : roster.Accounted) (active : (roster.next call).service.IsActive shard recovery) :
    roster.service.IsActive shard recovery ∨
      ∃ source, call = .event (.start shard source) ∧
        roster.service.Opens shard source recovery := by
  cases call with
  | frame input =>
      refine .inl ?_
      rcases next_frame roster input with same | ⟨request, same⟩
      · rw [same] at active
        exact active
      · rw [same] at active
        exact isActive_handle accounted active
  | event event =>
      cases event with
      | register other store engine => exact .inl active
      | modify store change => exact .inl active
      | elsewhere => exact .inl active
      | remove removed => exact .inl ((Service.spares_remove _ removed).isActive active)
      | handle request => exact .inl (isActive_handle accounted active)
      | start other source =>
          have spares := Service.spares_superseded accounted.placed other
          simp only [next, Service.answered, Service.after] at active
          rcases Service.startRecovery_outcome roster.service other source with
            ⟨_, error, started⟩ | ⟨error, started⟩ | ⟨start, place, started⟩
          · rw [started] at active
            exact .inl active
          · rw [started] at active
            exact .inl (spares.isActive active)
          · rw [started] at active
            obtain ⟨registered, found, own, going⟩ := active
            rw [Service.targets_opened] at found
            split at found
            · next new =>
                cases found
                subst own
                exact .inr ⟨source, rfl, start, by rw [started], new⟩
            · exact .inl (spares.isActive ⟨registered, found, own, going⟩)

/-- Of the recoveries of a shard, a start leaves the outdated ones active. -/
theorem isActive_started_iff {roster : Roster} (accounted : roster.Accounted) {shard : ShardId}
    {source : NodeId} {recovery : Int64}
    (other : ¬ roster.service.Opens shard source recovery) :
    (roster.next (.event (.start shard source))).service.IsActive shard recovery ↔
      roster.service.IsActive shard recovery ∧ roster.outdated recovery = true := by
  have accountedNext := accounted.start shard source
  constructor
  · intro active
    rcases isActive_next accounted active with before | ⟨_, same, opens⟩
    · refine ⟨before, Bool.eq_true_of_not_eq_false fun current => ?_⟩
      obtain ⟨registered, there, own⟩ := accounted.isActive_iff.mp before
      obtain ⟨left, found, ownLeft⟩ := accountedNext.isActive_iff.mp active
      have was := (accounted.current recovery registered there).mpr current
      have is := accountedNext.current recovery left found
      rw [own] at was
      rw [ownLeft] at is
      simp only [next, Service.answered, Service.after] at is
      rcases Service.startRecovery_outcome roster.service shard source with
        ⟨none, _⟩ | ⟨error, started⟩ | ⟨start, place, started⟩
      · rw [none] at was
        cases was
      · simp only [started, Service.activeOf_superseded, if_pos, current] at is
        cases is.mpr trivial
      · have number : recovery ≠ start.recovery := fun same =>
          other ⟨start, by rw [started], same.symm⟩
        simp only [started, Service.activeOf_opened, if_pos, current, Bool.and_false] at is
        obtain ⟨_, _, same⟩ := Option.bind_eq_some_iff.mp (is.mpr trivial)
        exact absurd (Option.some.inj same).symm number
    · cases same
      exact absurd opens other
  · rintro ⟨active, outdated⟩
    obtain ⟨registered, there, own⟩ := accounted.isActive_iff.mp active
    have inactive : roster.service.activeOf shard ≠ some recovery := by
      rw [← own, Ne, accounted.current recovery registered there, outdated]
      exact Bool.noConfusion
    have left := Service.targets_superseded inactive
    refine accountedNext.isActive_iff.mpr ⟨registered, ?_, own⟩
    simp only [next, Service.answered, Service.after]
    rcases Service.startRecovery_outcome roster.service shard source with
      ⟨_, error, started⟩ | ⟨error, started⟩ | ⟨start, place, started⟩
    · rw [started]
      exact there
    · rw [started]
      exact left.trans there
    · have number : start.recovery ≠ recovery := fun same => other ⟨start, by rw [started], same⟩
      rw [started, Service.targets_opened, if_neg number]
      exact left.trans there

/-- The recovery that is started is the only active one of its shard. -/
def Supersedes (roster : Roster) (shard : ShardId) (source : NodeId) : Prop :=
  ∀ recovery, (roster.next (.event (.start shard source))).service.IsActive shard recovery →
    roster.service.Opens shard source recovery

theorem supersedes_iff {roster : Roster} (accounted : roster.Accounted) (shard : ShardId)
    (source : NodeId) :
    roster.Supersedes shard source ↔ ∀ recovery, roster.outdated recovery →
      roster.service.IsActive shard recovery → roster.service.Opens shard source recovery := by
  constructor
  · intro supersedes recovery outdated active
    by_contra other
    have still := (isActive_started_iff accounted other).mpr ⟨active, outdated⟩
    exact other (supersedes recovery still)
  · intro taken recovery active
    by_contra other
    obtain ⟨before, outdated⟩ := (isActive_started_iff accounted other).mp active
    exact other (taken recovery outdated before)

/-- No call but a start gives a shard one more active recovery. -/
theorem exclusive_next {roster : Roster} (accounted : roster.Accounted)
    (exclusive : roster.service.Exclusive) {call : Call}
    (supersedes : ∀ shard source, call = .event (.start shard source) →
      roster.Supersedes shard source) : (roster.next call).service.Exclusive := by
  intro shard first second active activeToo
  rcases isActive_next accounted active with before | ⟨source, rfl, opens⟩
  · rcases isActive_next accounted activeToo with beforeToo | ⟨source, rfl, start, started, rfl⟩
    · exact exclusive shard first second before beforeToo
    · obtain ⟨other, startedToo, rfl⟩ := supersedes shard source rfl first active
      rw [started] at startedToo
      cases startedToo
      rfl
  · obtain ⟨start, started, rfl⟩ := opens
    obtain ⟨other, startedToo, rfl⟩ := supersedes shard source rfl second activeToo
    rw [started] at startedToo
    cases startedToo
    rfl

/-- A recovery that is not outdated is cancelled by the next start of its shard, which
remembers it as failed. -/
theorem finishedOf_started {roster : Roster} (accounted : roster.Accounted) {shard : ShardId}
    {recovery : Int64} (active : roster.service.IsActive shard recovery)
    (current : roster.outdated recovery = false) (source : NodeId) :
    ∃ progress, (roster.next (.event (.start shard source))).service.finishedOf shard =
      some (recovery, progress) ∧ progress.phase = .failed := by
  obtain ⟨registered, there, rfl⟩ := accounted.isActive_iff.mp active
  have running := (accounted.current recovery registered there).mpr current
  have going := accounted.going recovery registered there
  obtain ⟨slot, known, _⟩ := Option.bind_eq_some_iff.mp running
  obtain ⟨reason, line, ends⟩ := @Service.supersede_of_registered
    { roster.service with issued := roster.service.issued + 1 } _ _ registered running there going
    (.ofNat (roster.service.issued + 1))
  have finished : ∃ progress, (roster.service.superseded registered.target.shard).finishedOf
      registered.target.shard = some (recovery, progress) ∧ progress.phase = .failed := by
    have cancelled := @Receiver.phase_cancel
      (Service.receiver { roster.service with issued := roster.service.issued + 1 } registered)
      going reason
    refine ⟨_, ?_, cancelled⟩
    rw [Service.superseded, ends, Service.finishedOf_modifySlot, if_pos rfl]
    change (Service.modifySlot roster.service registered.target.shard _).slots[
      registered.target.shard]?.bind _ = _
    rw [Service.slots_modifySlot, if_pos rfl, known]
    rfl
  obtain ⟨progress, found, failed⟩ := finished
  refine ⟨progress, ?_, failed⟩
  simp only [next, Service.answered, Service.after]
  rcases Service.startRecovery_outcome roster.service registered.target.shard source with
    ⟨none, _⟩ | ⟨error, started⟩ | ⟨start, place, started⟩
  · rw [none] at running
    cases running
  · rw [started]
    exact found
  · rw [started, Service.opened, Service.finishedOf_modifySlot, if_pos rfl]
    exact found

/-- In a run of a service no shard ever has two active recoveries, and every start leaves
its shard no other active recovery than the one that it opens, exactly if no start meets
an active recovery that is outdated, unless it takes over the number of that one. An
active recovery that is not outdated is cancelled by the next start of its shard. -/
theorem exclusive_iff (node : NodeId) (calls : List Call) :
    (((∀ earlier, earlier <+: calls → (run node earlier).service.Exclusive) ∧
        ∀ earlier shard source, earlier ++ [.event (.start shard source)] <+: calls →
          (run node earlier).Supersedes shard source) ↔
      ∀ earlier shard source, earlier ++ [.event (.start shard source)] <+: calls →
        ∀ recovery, (run node earlier).outdated recovery →
          (run node earlier).service.IsActive shard recovery →
            (run node earlier).service.Opens shard source recovery) ∧
    ∀ shard source recovery, (run node calls).service.IsActive shard recovery →
      (run node calls).outdated recovery = false →
        ∃ progress, (run node (calls ++ [.event (.start shard source)])).service.finishedOf shard =
          some (recovery, progress) ∧ progress.phase = .failed := by
  refine ⟨⟨fun ⟨_, supersedes⟩ earlier shard source within => ?_, fun taken => ?_⟩, ?_⟩
  · exact (supersedes_iff (accounted_run node earlier) shard source).mp
      (supersedes earlier shard source within)
  · have supersedes : ∀ earlier shard source, earlier ++ [.event (.start shard source)] <+: calls →
        (run node earlier).Supersedes shard source := fun earlier shard source within =>
      (supersedes_iff (accounted_run node earlier) shard source).mpr
        (taken earlier shard source within)
    refine ⟨fun earlier within => ?_, supersedes⟩
    induction earlier using List.reverseRecOn with
    | nil =>
        rintro shard first second ⟨registered, found, _⟩
        simp [run] at found
    | append_singleton earlier call ih =>
        have before := (List.prefix_append earlier [call]).trans within
        rw [run_concat]
        refine exclusive_next (accounted_run node earlier) (ih before) ?_
        rintro shard source rfl
        exact supersedes earlier shard source within
  · intro shard source recovery active current
    rw [run_concat]
    exact finishedOf_started (accounted_run node calls) active current source

open Watched (receivingNode)

def startedOnce : List Call := [
  .event (.register default "a" {}),
  .event (.start default receivingNode)]

theorem exclusive_iff_startedOnce :
    (run receivingNode startedOnce).service.IsActive default 1 ∧
      (run receivingNode startedOnce).outdated 1 = false ∧
      ∃ progress, (run receivingNode
        (startedOnce ++ [.event (.start default receivingNode)])).service.finishedOf default =
          some (1, progress) ∧ progress.phase = .failed := by
  have active : (run receivingNode startedOnce).service.IsActive default 1 := by decide +kernel
  have current : (run receivingNode startedOnce).outdated 1 = false := by decide +kernel
  exact ⟨active, current,
    (exclusive_iff receivingNode startedOnce).2 default receivingNode 1 active current⟩

/-- The shard is registered again while a recovery of it is going on. -/
def registeredTwice : List Call := startedOnce ++ [.event (.register default "a" {})]

/-- The next recovery of a shard that has been registered again goes on beside the
earlier one. -/
theorem not_exclusive_registeredTwice :
    ¬ ((∀ (node : NodeId) (calls : List Call), (run node calls).service.Exclusive) ∧
      ∀ (node : NodeId) (calls : List Call) (shard : ShardId) (source : NodeId),
        (run node calls).Supersedes shard source) := by
  rintro ⟨exclusive, _⟩
  have same : (1 : Int64) = 2 := exclusive receivingNode
    (registeredTwice ++ [.event (.start default receivingNode)]) default 1 2
    (by decide +kernel) (by decide +kernel)
  exact absurd same (by decide)

end Roster

end ShardSync.Recovery
