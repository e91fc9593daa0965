import ShardSync.Proofs.Recovery.Numbering

/-!
# What a service keeps of its recoveries

Which recoveries are registered, which of them is the active one of its shard, and
which one of the shard has ended last. What an operation of a service does to its
recoveries shows in these three.
-/

set_option autoImplicit false

namespace ShardSync.Recovery

theorem values_eq_map_toList {α β : Type} {cmp : α → α → Ordering} [Std.TransCmp cmp]
    (map : Std.ExtTreeMap α β cmp) : map.values = map.toList.map (·.2) := by
  have folded : map.values = map.foldr (fun _ value rest => value :: rest) [] := rfl
  rw [folded, Std.ExtTreeMap.foldr_eq_foldr_toList]
  induction map.toList with
  | nil => rfl
  | cons first rest ih => rw [List.foldr_cons, ih, List.map_cons]

@[ext]
structure Registry where
  /-- The shard of a recovery that is registered. -/
  owner : Int64 → Option ShardId
  active : ShardId → Option Int64
  finished : ShardId → Option (Int64 × Progress)

namespace Registry

/-- The active recovery of the shard ends. -/
def finish (registry : Registry) (shard : ShardId) (recovery : Int64) (progress : Progress) :
    Registry where
  owner := Function.update registry.owner recovery none
  active := Function.update registry.active shard none
  finished := Function.update registry.finished shard (some (recovery, progress))

def enter (registry : Registry) (shard : ShardId) (recovery : Int64) : Registry where
  owner := Function.update registry.owner recovery (some shard)
  active := Function.update registry.active shard (some recovery)
  finished := registry.finished

def forget (registry : Registry) (shard : ShardId) : Registry :=
  { registry with finished := Function.update registry.finished shard none }

variable {registry : Registry} {shard : ShardId} {recovery : Int64}

/-- The recoveries that are registered are the active ones of their shards. -/
def IsCurrent (registry : Registry) : Prop :=
  ∀ shard recovery, registry.owner recovery = some shard ↔ registry.active shard = some recovery

/-- No recovery has ended as the last one of two shards. -/
def IsApart (registry : Registry) : Prop :=
  ∀ shard other recovery progress state, registry.finished shard = some (recovery, progress) →
    registry.finished other = some (recovery, state) → other = shard

theorem IsCurrent.finish (current : registry.IsCurrent) (own : registry.owner recovery = some shard)
    (progress : Progress) : (registry.finish shard recovery progress).IsCurrent := by
  have active := (current shard recovery).mp own
  intro other number
  have before := current other number
  simp only [Registry.finish, Function.update_apply]
  grind

theorem IsCurrent.enter (current : registry.IsCurrent) (free : registry.active shard = none)
    (fresh : registry.owner recovery = none) : (registry.enter shard recovery).IsCurrent := by
  intro other number
  have before := current other number
  have unused := current other recovery
  simp only [Registry.enter, Function.update_apply]
  grind

theorem IsApart.finish (apart : registry.IsApart)
    (fresh : ∀ other state, registry.finished other ≠ some (recovery, state)) (shard : ShardId)
    (progress : Progress) : (registry.finish shard recovery progress).IsApart := by
  intro first second number state other
  have before := apart first second number state other
  have unused := fresh first state
  have unusedToo := fresh second other
  simp only [Registry.finish, Function.update_apply]
  grind

theorem IsApart.forget (apart : registry.IsApart) (shard : ShardId) :
    (registry.forget shard).IsApart := by
  intro first second number state other
  have before := apart first second number state other
  simp only [Registry.forget, Function.update_apply]
  grind

end Registry

namespace Service

def registry (service : Service) : Registry where
  owner recovery := service.targets[recovery]?.map (·.target.shard)
  active := service.activeOf
  finished := service.finishedOf

variable {service : Service} {recovery : Int64} {registered : Registered}

theorem registry_worked {after : Receiver} (there : service.targets[recovery]? = some registered)
    (moved : after.target.shard = registered.target.shard) :
    (service.worked recovery registered after).registry = service.registry := by
  refine Registry.ext (funext fun other => ?_) rfl rfl
  simp only [registry, targets_worked]
  split
  · next same =>
      subst same
      rw [there, Option.map_some, Option.map_some, moved]
  · rfl

theorem registry_erase (service : Service) (recovery : Int64) :
    registry { service with targets := service.targets.erase recovery } =
      { service.registry with owner := Function.update service.registry.owner recovery none } := by
  refine Registry.ext (funext fun other => ?_) rfl rfl
  simp only [registry, targets_without, Function.update_apply]
  by_cases same : recovery = other
  · rw [if_pos same, if_pos same.symm, Option.map_none]
  · rw [if_neg same, if_neg (Ne.symm same)]

theorem registry_insert (service : Service) (recovery : Int64) (registered : Registered) :
    registry { service with targets := service.targets.insert recovery registered } =
      { service.registry with
        owner := Function.update service.registry.owner recovery
          (some registered.target.shard) } := by
  refine Registry.ext (funext fun other => ?_) rfl rfl
  simp only [registry, targets_insert, Function.update_apply]
  by_cases same : recovery = other
  · rw [if_pos same, if_pos same.symm, Option.map_some]
  · rw [if_neg same, if_neg (Ne.symm same)]

theorem registry_modifySlot {shard : ShardId} {slot : Slot} (known : service.slots[shard]? = some slot)
    (change : Slot → Slot) :
    (service.modifySlot shard change).registry = {
      owner := service.registry.owner
      active := Function.update service.registry.active shard (change slot).active?
      finished := Function.update service.registry.finished shard (change slot).finished? } := by
  refine Registry.ext rfl (funext fun other => ?_) (funext fun other => ?_)
  · refine (activeOf_modifySlot ..).trans ?_
    by_cases same : shard = other
    · simp [← same, known]
    · simp [registry, same, Ne.symm same]
  · refine (finishedOf_modifySlot ..).trans ?_
    by_cases same : shard = other
    · simp [← same, known]
    · simp [registry, same, Ne.symm same]

/-- A target that is over is entered as the last one of its shard. -/
theorem registry_retire (there : service.targets[recovery]? = some registered)
    (active : service.activeOf registered.target.shard = some recovery) :
    (service.retire recovery).registry =
      service.registry.finish registered.target.shard recovery registered.target.progress := by
  obtain ⟨slot, known, running⟩ := Option.bind_eq_some_iff.mp active
  let dropped : Service := { service with targets := service.targets.erase recovery }
  have kept : dropped.slots[registered.target.shard]? = some slot := known
  rw [retire, there]
  refine (registry_modifySlot kept _).trans ?_
  rw [registry_erase, if_pos running]
  rfl

/-- What the active recovery of a shard leaves behind when another one is started. -/
def displaced (service : Service) (shard : ShardId) (previous successor : Int64)
    (registered : Registered) : Receiver :=
  if registered.target.progress.isTerminal then service.receiver registered
  else
    ((service.receiver registered).cancel s!"superseded by recovery [{successor}]").logLine <|
      .ofEvent .recoverySuperseded [("recovery_id", toString previous), ("shard", shard.label),
        ("superseded_by", toString successor)]

/-- A recovery that has made way is over. -/
theorem isOver_displaced (service : Service) (shard : ShardId) (previous successor : Int64)
    (registered : Registered) :
    (service.displaced shard previous successor registered).isOver = true := by
  unfold displaced
  split
  · next ended => exact ended
  · next going =>
      have going := Bool.eq_false_of_not_eq_true going
      change ((service.receiver registered).cancel _).phase.isTerminal = true
      rw [@Receiver.phase_cancel (service.receiver registered) going]
      rfl

theorem supersede_of_active {shard : ShardId} (active : service.activeOf shard = some recovery)
    (there : service.targets[recovery]? = some registered) (successor : Int64) :
    service.supersede shard successor =
      (keep { service.modifySlot shard fun slot => { slot with active? := none } with
        targets := service.targets.erase recovery } registered.place
          (service.displaced shard recovery successor registered)).modifySlot shard fun slot =>
            { slot with
              finished? := some (recovery,
                (service.displaced shard recovery successor registered).target.progress) } := by
  unfold supersede
  rw [show service.slots[shard]?.bind (·.active?) = some recovery from active]
  dsimp only
  rw [show (service.modifySlot shard fun slot => { slot with active? := none }).targets =
    service.targets from rfl, there]
  rfl

theorem registry_supersede {shard : ShardId} (active : service.activeOf shard = some recovery)
    (there : service.targets[recovery]? = some registered) (successor : Int64) :
    (service.supersede shard successor).registry =
      service.registry.finish shard recovery
        (service.displaced shard recovery successor registered).target.progress := by
  obtain ⟨slot, known, _⟩ := Option.bind_eq_some_iff.mp active
  let cleared := service.modifySlot shard fun slot => { slot with active? := none }
  let dropped := { cleared with targets := service.targets.erase recovery }
  have erased : dropped.registry = {
      owner := Function.update service.registry.owner recovery none
      active := Function.update service.registry.active shard none
      finished := Function.update service.registry.finished shard slot.finished? } := by
    refine (registry_erase cleared recovery).trans ?_
    rw [registry_modifySlot known]
  have kept : dropped.slots[shard]? = some { slot with active? := none } := by
    refine (slots_modifySlot service shard shard _).trans ?_
    rw [if_pos rfl, known, Option.map_some]
  rw [supersede_of_active active there]
  refine (@registry_modifySlot (keep dropped ..) _ _ kept _).trans ?_
  change Registry.mk dropped.registry.owner (Function.update dropped.registry.active shard _)
    (Function.update dropped.registry.finished shard _) = _
  rw [erased, Function.update_idem, Function.update_idem]
  rfl

theorem registry_opened {shard : ShardId} (hosted : service.slotPlace shard ≠ none)
    (own : registered.target.shard = shard) (recovery : Int64) :
    (service.opened shard recovery registered).registry =
      service.registry.enter shard recovery := by
  obtain ⟨place, found⟩ := Option.ne_none_iff_exists'.mp hosted
  obtain ⟨slot, known, _⟩ := Option.map_eq_some_iff.mp found
  let entered : Service :=
    { service with targets := service.targets.insert recovery registered }
  have kept : entered.slots[shard]? = some slot := known
  have finished : service.registry.finished shard = slot.finished? := by
    change service.slots[shard]?.bind (·.finished?) = _
    rw [known, Option.bind_some]
  refine (registry_modifySlot kept _).trans ?_
  rw [registry_insert, own, Registry.enter]
  dsimp only
  rw [← finished, Function.update_eq_self]

/-- A shard that was not known before has nothing in the books. -/
theorem registry_register {shard : ShardId} (fresh : service.slots[shard]? = none)
    (store : String) (engine : Engine) :
    (service.register shard store engine).registry = service.registry := by
  refine Registry.ext rfl (funext fun other => ?_) (funext fun other => ?_)
  · simp only [registry, activeOf, slots_register]
    split
    · next same => rw [← same, fresh, Option.bind_some, Option.bind_none]
    · rfl
  · simp only [registry, finishedOf, slots_register]
    split
    · next same => rw [← same, fresh, Option.bind_some, Option.bind_none]
    · rfl

theorem finished_of_slot {shard : ShardId} {slot : Slot} (known : service.slots[shard]? = some slot) :
    service.registry.finished shard = slot.finished? := by
  change service.slots[shard]?.bind (·.finished?) = _
  rw [known, Option.bind_some]

theorem forget_cases (service : Service) (recovery : Int64) :
    (service.forget recovery = (false, service) ∧
      ∀ shard progress, service.registry.finished shard ≠ some (recovery, progress)) ∨
    ∃ shard progress, service.registry.finished shard = some (recovery, progress) ∧
      (service.forget recovery).1 = true ∧
      (service.forget recovery).2.registry = service.registry.forget shard := by
  unfold forget
  split
  · next missing =>
      refine .inl ⟨rfl, fun shard progress finished => ?_⟩
      obtain ⟨slot, known, kept⟩ := Option.bind_eq_some_iff.mp finished
      have other := List.find?_eq_none.mp missing (shard, slot)
        (Std.ExtTreeMap.mem_toList_iff_getElem?_eq_some.mpr known)
      simp [kept] at other
  · next shard slot found =>
      have known := Std.ExtTreeMap.mem_toList_iff_getElem?_eq_some.mp (List.mem_of_find?_eq_some found)
      have own := List.find?_some found
      rw [Option.any_eq_true] at own
      obtain ⟨⟨other, progress⟩, kept, same⟩ := own
      obtain rfl := beq_iff_eq.mp same
      refine .inr ⟨shard, progress, (finished_of_slot known).trans kept, rfl, ?_⟩
      have active : service.registry.active shard = slot.active? := by
        change service.slots[shard]?.bind (·.active?) = _
        rw [known, Option.bind_some]
      refine (registry_modifySlot known _).trans ?_
      dsimp only
      rw [← active, Function.update_eq_self]
      rfl

/-- What the books say of a recovery that is over is its progress. -/
theorem progress?_of_finished {shard : ShardId} {progress : Progress}
    (gone : service.targets[recovery]? = none)
    (finished : service.registry.finished shard = some (recovery, progress))
    (unique : ∀ other found, service.registry.finished other = some (recovery, found) →
      other = shard) :
    service.progress? recovery = some progress := by
  unfold progress?
  rw [gone]
  dsimp only
  cases told : service.slots.values.findSome? fun slot => slot.finished?.bind fun entry =>
      if entry.1 = recovery then some entry.2 else none with
  | none =>
      obtain ⟨slot, known, kept⟩ := Option.bind_eq_some_iff.mp finished
      have listed : slot ∈ service.slots.values := by
        rw [values_eq_map_toList]
        exact List.mem_map.mpr
          ⟨(shard, slot), Std.ExtTreeMap.mem_toList_iff_getElem?_eq_some.mpr known, rfl⟩
      have silent := List.findSome?_eq_none_iff.mp told slot listed
      simp [kept] at silent
  | some found =>
      obtain ⟨slot, listed, told⟩ := List.exists_of_findSome?_eq_some told
      rw [values_eq_map_toList] at listed
      obtain ⟨⟨other, slot⟩, member, rfl⟩ := List.mem_map.mp listed
      have known := Std.ExtTreeMap.mem_toList_iff_getElem?_eq_some.mp member
      obtain ⟨⟨number, kept⟩, entered, same⟩ := Option.bind_eq_some_iff.mp told
      dsimp only at same entered
      split at same
      · next own =>
          cases same
          subst own
          have entry := (finished_of_slot known).trans entered
          obtain rfl := unique other found entry
          rw [entry] at finished
          cases finished
          rfl
      · cases same

end Service

end ShardSync.Recovery
