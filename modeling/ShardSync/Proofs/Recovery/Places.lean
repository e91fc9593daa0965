import ShardSync.Proofs.Recovery.Phases
import ShardSync.Recovery.Service

/-!
# Places of a service

Every engine of a service has a number of its own, and no two targets work on
the same engine: the one that does is the active recovery of the shard. So what
a target does to its engine is seen by no other target.
-/

set_option autoImplicit false

namespace ShardSync.Recovery.Service

def placeOf (service : Service) (recovery : Int64) : Option Place :=
  service.targets[recovery]?.map (·.place)

def slotPlace (service : Service) (shard : ShardId) : Option Place :=
  service.slots[shard]?.map (·.place)

def activeOf (service : Service) (shard : ShardId) : Option Int64 :=
  service.slots[shard]?.bind (·.active?)

def engineAt (service : Service) (number : Nat) : Engine := service.engines.getD number {}

/-- The engines are numbered from zero on, and none of them serves two shards or
two targets. -/
structure Placed (service : Service) : Prop where
  keys : ∀ number ∈ service.engines, number < service.engines.size
  slot_mem : ∀ shard place, service.slotPlace shard = some place →
    place.engine ∈ service.engines
  target_mem : ∀ recovery place, service.placeOf recovery = some place →
    place.engine ∈ service.engines
  apart : ∀ first second place other, service.slotPlace first = some place →
    service.slotPlace second = some other → place.engine = other.engine → first = second
  active : ∀ shard recovery place other, service.slotPlace shard = some place →
    service.placeOf recovery = some other → other.engine = place.engine →
      service.activeOf shard = some recovery
  unique : ∀ first second place other, service.placeOf first = some place →
    service.placeOf second = some other → place.engine = other.engine → first = second

theorem placed_empty (node : NodeId) : Placed { node } where
  keys number member := by simp at member
  slot_mem shard place found := by simp [slotPlace] at found
  target_mem recovery place found := by simp [placeOf] at found
  apart first second place other found := by simp [slotPlace] at found
  active shard recovery place other found := by simp [slotPlace] at found
  unique first second place other found := by simp [placeOf] at found

/-- The engines keep their numbers, no target is added or moved, and a shard
loses its active recovery only if that is not registered any more. -/
structure Shrinks (before after : Service) : Prop where
  size : after.engines.size = before.engines.size
  engines : ∀ number, number ∈ after.engines ↔ number ∈ before.engines
  slots : ∀ shard, after.slotPlace shard = before.slotPlace shard
  targets : ∀ recovery place, after.placeOf recovery = some place →
    before.placeOf recovery = some place
  active : ∀ shard recovery, before.activeOf shard = some recovery →
    after.activeOf shard = some recovery ∨ after.placeOf recovery = none

/-- What a service does beside its engines, slots and targets is of no account. -/
theorem Shrinks.of_same {before after : Service} (engines : after.engines = before.engines)
    (slots : after.slots = before.slots) (targets : after.targets = before.targets) :
    Shrinks before after where
  size := by rw [engines]
  engines number := by rw [engines]
  slots shard := by rw [slotPlace, slotPlace, slots]
  targets recovery place found := by
    rw [placeOf, targets] at found
    exact found
  active shard recovery found := by
    refine .inl ?_
    rw [activeOf, slots]
    exact found

theorem Shrinks.refl (service : Service) : Shrinks service service := .of_same rfl rfl rfl

theorem Shrinks.trans {first second third : Service} (earlier : Shrinks first second)
    (later : Shrinks second third) : Shrinks first third where
  size := later.size.trans earlier.size
  engines number := (later.engines number).trans (earlier.engines number)
  slots shard := (later.slots shard).trans (earlier.slots shard)
  targets recovery place found := earlier.targets recovery place (later.targets recovery place found)
  active shard recovery found := by
    rcases earlier.active shard recovery found with between | gone
    · exact later.active shard recovery between
    · refine .inr (Option.eq_none_iff_forall_ne_some.mpr fun place there => ?_)
      rw [later.targets recovery place there] at gone
      cases gone

theorem Placed.shrinks {before after : Service} (placed : before.Placed)
    (shrinks : Shrinks before after) : after.Placed where
  keys number member := by
    rw [shrinks.size]
    exact placed.keys number ((shrinks.engines number).mp member)
  slot_mem shard place found := by
    rw [shrinks.slots] at found
    exact (shrinks.engines _).mpr (placed.slot_mem shard place found)
  target_mem recovery place found :=
    (shrinks.engines _).mpr (placed.target_mem recovery place (shrinks.targets recovery place found))
  apart first second place other found foundOther := by
    rw [shrinks.slots] at found foundOther
    exact placed.apart first second place other found foundOther
  active shard recovery place other found there same := by
    rw [shrinks.slots] at found
    have before := placed.active shard recovery place other found
      (shrinks.targets recovery other there) same
    rcases shrinks.active shard recovery before with still | gone
    · exact still
    · rw [gone] at there
      cases there
  unique first second place other found foundOther :=
    placed.unique first second place other (shrinks.targets first place found)
      (shrinks.targets second other foundOther)

theorem slots_modifySlot (service : Service) (shard other : ShardId) (change : Slot → Slot) :
    (service.modifySlot shard change).slots[other]? =
      if shard = other then service.slots[other]?.map change else service.slots[other]? := by
  rw [modifySlot, Std.ExtTreeMap.getElem?_modify]
  by_cases same : shard = other
  · rw [if_pos same, if_pos (Std.LawfulEqCmp.compare_eq_iff_eq.mpr same), same]
  · rw [if_neg same, if_neg fun equal => same (Std.LawfulEqCmp.compare_eq_iff_eq.mp equal)]

theorem slotPlace_modifySlot {change : Slot → Slot}
    (place : ∀ slot, (change slot).place = slot.place) (service : Service)
    (shard other : ShardId) :
    (service.modifySlot shard change).slotPlace other = service.slotPlace other := by
  rw [slotPlace, slots_modifySlot, slotPlace]
  split
  · rw [Option.map_map]
    cases service.slots[other]? with
    | none => rfl
    | some slot => exact congrArg some (place slot)
  · rfl

/-- A change of a slot that keeps its place, and clears the active recovery only
if that is not registered. -/
theorem shrinks_modifySlot {service : Service} {shard : ShardId} {change : Slot → Slot}
    (place : ∀ slot, (change slot).place = slot.place)
    (active : ∀ recovery, service.activeOf shard = some recovery →
      (service.modifySlot shard change).activeOf shard = some recovery ∨
        service.placeOf recovery = none) :
    Shrinks service (service.modifySlot shard change) where
  size := rfl
  engines _ := Iff.rfl
  slots := slotPlace_modifySlot place service shard
  targets _ _ found := found
  active other recovery found := by
    by_cases same : shard = other
    · rw [← same] at found ⊢
      exact active recovery found
    · refine .inl ?_
      rw [activeOf, slots_modifySlot, if_neg same]
      exact found

theorem shrinks_annotate {service : Service} {shard : ShardId} {change : Slot → Slot}
    (place : ∀ slot, (change slot).place = slot.place)
    (active : ∀ slot, (change slot).active? = slot.active?) :
    Shrinks service (service.modifySlot shard change) := by
  refine shrinks_modifySlot place fun recovery found => .inl ?_
  rw [activeOf, Option.bind_eq_some_iff] at found
  obtain ⟨slot, there, running⟩ := found
  rw [activeOf, slots_modifySlot, if_pos rfl, there, ← running]
  exact active slot

theorem shrinks_clear {service : Service} {shard : ShardId} {previous : Int64}
    (active : service.activeOf shard = some previous) (gone : service.placeOf previous = none) :
    Shrinks service (service.modifySlot shard fun slot => { slot with active? := none }) := by
  refine shrinks_modifySlot (fun _ => rfl) fun recovery found => .inr ?_
  rw [active] at found
  cases found
  exact gone

theorem shrinks_keep {service : Service} {place : Place} (known : place.engine ∈ service.engines)
    (receiver : Receiver) : Shrinks service (service.keep place receiver) where
  size := by
    rw [keep, Std.ExtTreeMap.size_insert]
    exact if_pos known
  engines number := by
    rw [keep, Std.ExtTreeMap.mem_insert, Std.LawfulEqCmp.compare_eq_iff_eq]
    constructor
    · intro given
      rcases given with same | member
      · rw [← same]
        exact known
      · exact member
    · exact .inr
  slots _ := rfl
  targets _ _ found := found
  active _ _ found := .inl found

theorem targets_without (service : Service) (erased recovery : Int64) :
    (service.targets.erase erased)[recovery]? =
      if erased = recovery then none else service.targets[recovery]? := by
  rw [Std.ExtTreeMap.getElem?_erase]
  simp only [Std.LawfulEqCmp.compare_eq_iff_eq]

theorem placeOf_erase (service : Service) (erased recovery : Int64) :
    placeOf { service with targets := service.targets.erase erased } recovery =
      if erased = recovery then none else service.placeOf recovery := by
  rw [placeOf, targets_without]
  split <;> rfl

theorem shrinks_erase (service : Service) (erased : Int64) :
    Shrinks service { service with targets := service.targets.erase erased } where
  size := rfl
  engines _ := Iff.rfl
  slots _ := rfl
  targets recovery place found := by
    rw [placeOf_erase] at found
    split at found
    · cases found
    · exact found
  active _ _ found := .inl found

theorem engineAt_keep (service : Service) (place : Place) (receiver : Receiver) (number : Nat) :
    (service.keep place receiver).engineAt number =
      if place.engine = number then receiver.copy.engine else service.engineAt number := by
  rw [engineAt, keep, Std.ExtTreeMap.getD_insert]
  by_cases same : place.engine = number
  · rw [if_pos same, if_pos (Std.LawfulEqCmp.compare_eq_iff_eq.mpr same)]
  · rw [if_neg same, if_neg fun equal => same (Std.LawfulEqCmp.compare_eq_iff_eq.mp equal)]
    rfl

/-- The targets that remain are as they were, and so are their engines. -/
def Spares (before after : Service) : Prop :=
  ∀ (recovery : Int64) (registered : Registered), after.targets[recovery]? = some registered →
    before.targets[recovery]? = some registered ∧
      after.engineAt registered.place.engine = before.engineAt registered.place.engine

theorem Spares.refl (service : Service) : Spares service service :=
  fun _ _ found => ⟨found, rfl⟩

theorem Spares.trans {first second third : Service} (earlier : Spares first second)
    (later : Spares second third) : Spares first third := by
  intro recovery registered found
  obtain ⟨between, same⟩ := later recovery registered found
  obtain ⟨before, sameBefore⟩ := earlier recovery registered between
  exact ⟨before, same.trans sameBefore⟩

theorem spares_modifySlot (service : Service) (shard : ShardId) (change : Slot → Slot) :
    Spares service (service.modifySlot shard change) := fun _ _ found => ⟨found, rfl⟩

theorem targets_erase {service : Service} {erased recovery : Int64} {registered : Registered}
    (found : (service.targets.erase erased)[recovery]? = some registered) :
    erased ≠ recovery ∧ service.targets[recovery]? = some registered := by
  rw [targets_without] at found
  split at found
  · cases found
  · next differ => exact ⟨differ, found⟩

theorem spares_erase (service : Service) (erased : Int64) :
    Spares service { service with targets := service.targets.erase erased } :=
  fun _ _ found => ⟨(targets_erase found).2, rfl⟩

theorem placeOf_eq_some {service : Service} {recovery : Int64} {registered : Registered}
    (found : service.targets[recovery]? = some registered) :
    service.placeOf recovery = some registered.place := by
  rw [placeOf, found]
  rfl

theorem placeOf_eq_none {service : Service} {recovery : Int64}
    (missing : service.targets[recovery]? = none) : service.placeOf recovery = none := by
  rw [placeOf, missing]
  rfl

theorem Shrinks.gone {before after : Service} (shrinks : Shrinks before after) {recovery : Int64}
    (gone : before.targets[recovery]? = none) : after.targets[recovery]? = none := by
  by_contra there
  obtain ⟨registered, found⟩ := Option.ne_none_iff_exists'.mp there
  have was := shrinks.targets recovery _ (placeOf_eq_some found)
  rw [placeOf_eq_none gone] at was
  cases was

/-- A target that is dropped may leave something at its place. -/
theorem spares_erase_keep {service : Service} (placed : service.Placed) {erased : Int64}
    {registered : Registered} (there : service.targets[erased]? = some registered)
    (receiver : Receiver) :
    Spares service
      (keep { service with targets := service.targets.erase erased } registered.place receiver) := by
  intro recovery other found
  obtain ⟨differ, found⟩ := targets_erase found
  refine ⟨found, ?_⟩
  rw [engineAt_keep, if_neg]
  · rfl
  · intro same
    exact differ (placed.unique _ _ _ _ (placeOf_eq_some there) (placeOf_eq_some found) same)

/-- The three ways of superseding the active recovery of a shard: there is none,
it is not registered any more, or it is dropped. -/
theorem supersede_cases (service : Service) (shard : ShardId) (successor : Int64) :
    (service.activeOf shard = none ∧ service.supersede shard successor = service) ∨
    (∃ previous, service.activeOf shard = some previous ∧ service.targets[previous]? = none ∧
      service.supersede shard successor =
        service.modifySlot shard fun slot => { slot with active? := none }) ∨
    ∃ previous registered receiver finished, service.activeOf shard = some previous ∧
      service.targets[previous]? = some registered ∧
      service.supersede shard successor =
        (keep { service.modifySlot shard fun slot => { slot with active? := none } with
          targets := service.targets.erase previous } registered.place receiver).modifySlot shard
            fun slot => { slot with finished? := some finished } := by
  unfold supersede
  cases active : service.activeOf shard with
  | none =>
      have none : service.slots[shard]?.bind (·.active?) = none := active
      rw [none]
      exact .inl ⟨rfl, rfl⟩
  | some previous =>
      have known : service.slots[shard]?.bind (·.active?) = some previous := active
      rw [known]
      dsimp only
      have same : (service.modifySlot shard fun slot =>
        { slot with active? := none }).targets = service.targets := rfl
      rw [same]
      cases there : service.targets[previous]? with
      | none => exact .inr (.inl ⟨previous, rfl, there, rfl⟩)
      | some registered => exact .inr (.inr ⟨previous, registered, _, _, rfl, there, rfl⟩)

theorem shrinks_supersede {service : Service} (placed : service.Placed) (shard : ShardId)
    (successor : Int64) : Shrinks service (service.supersede shard successor) := by
  rcases supersede_cases service shard successor with
    ⟨_, same⟩ | ⟨previous, active, missing, same⟩ |
      ⟨previous, registered, receiver, finished, active, there, same⟩
  · rw [same]
    exact .refl service
  · rw [same]
    exact shrinks_clear active (placeOf_eq_none missing)
  · rw [same]
    have gone : placeOf { service with targets := service.targets.erase previous } previous =
        none := by
      rw [placeOf_erase, if_pos rfl]
    have dropped : Shrinks service
        { service.modifySlot shard fun slot => { slot with active? := none } with
          targets := service.targets.erase previous } :=
      (shrinks_erase service previous).trans (shrinks_clear active gone)
    have known := placed.target_mem previous _ (placeOf_eq_some there)
    exact (dropped.trans (shrinks_keep ((dropped.engines _).mpr known) receiver)).trans
      (shrinks_annotate (fun _ => rfl) fun _ => rfl)

theorem spares_supersede {service : Service} (placed : service.Placed) (shard : ShardId)
    (successor : Int64) : Spares service (service.supersede shard successor) := by
  rcases supersede_cases service shard successor with
    ⟨_, same⟩ | ⟨previous, active, missing, same⟩ |
      ⟨previous, registered, receiver, finished, active, there, same⟩
  · rw [same]
    exact .refl service
  · rw [same]
    exact spares_modifySlot service shard _
  · rw [same]
    exact (spares_erase_keep placed there receiver).trans (spares_modifySlot _ shard _)

/-- No target works on the engine of a shard whose recovery has been superseded. -/
theorem free_supersede {service : Service} (placed : service.Placed) {shard : ShardId}
    {successor recovery : Int64} {place other : Place}
    (slot : service.slotPlace shard = some place)
    (found : (service.supersede shard successor).placeOf recovery = some other) :
    other.engine ≠ place.engine := by
  intro equal
  have shrinks := shrinks_supersede placed shard successor
  have active := placed.active shard recovery place other slot (shrinks.targets recovery other found)
    equal
  rcases supersede_cases service shard successor with
    ⟨inactive, _⟩ | ⟨previous, running, missing, same⟩ |
      ⟨previous, registered, receiver, finished, running, there, same⟩
  · rw [inactive] at active
    cases active
  · rw [running] at active
    cases active
    have gone := shrinks.targets recovery other found
    rw [placeOf_eq_none missing] at gone
    cases gone
  · rw [running] at active
    cases active
    rw [same] at found
    have gone : placeOf { service with targets := service.targets.erase recovery } recovery =
        some other := found
    rw [placeOf_erase, if_pos rfl] at gone
    cases gone

theorem slots_register (service : Service) (shard other : ShardId) (store : String)
    (engine : Engine) :
    (service.register shard store engine).slots[other]? =
      if shard = other then some { place := { store, engine := service.engines.size } }
      else service.slots[other]? := by
  rw [register, Std.ExtTreeMap.getElem?_insert]
  simp only [Std.LawfulEqCmp.compare_eq_iff_eq]

theorem slotPlace_register (service : Service) (shard other : ShardId) (store : String)
    (engine : Engine) :
    (service.register shard store engine).slotPlace other =
      if shard = other then some { store, engine := service.engines.size }
      else service.slotPlace other := by
  rw [slotPlace, slots_register]
  split <;> rfl

theorem activeOf_register (service : Service) (shard other : ShardId) (store : String)
    (engine : Engine) :
    (service.register shard store engine).activeOf other =
      if shard = other then none else service.activeOf other := by
  rw [activeOf, slots_register]
  split <;> rfl

theorem placed_register {service : Service} (placed : service.Placed) (shard : ShardId)
    (store : String) (engine : Engine) : (service.register shard store engine).Placed := by
  have fresh : service.engines.size ∉ service.engines := fun member =>
    Nat.lt_irrefl _ (placed.keys _ member)
  have size : (service.register shard store engine).engines.size = service.engines.size + 1 := by
    rw [register, Std.ExtTreeMap.size_insert]
    exact if_neg fresh
  have member {number : Nat} : number ∈ (service.register shard store engine).engines ↔
      number = service.engines.size ∨ number ∈ service.engines := by
    rw [register, Std.ExtTreeMap.mem_insert, Std.LawfulEqCmp.compare_eq_iff_eq, eq_comm]
  have slotPlace (other : ShardId) (place : Place)
      (found : (service.register shard store engine).slotPlace other = some place) :
      (shard = other ∧ place.engine = service.engines.size) ∨
        (shard ≠ other ∧ service.slotPlace other = some place) := by
    rw [slotPlace_register] at found
    split at found
    · next same =>
        cases found
        exact .inl ⟨same, rfl⟩
    · next differ => exact .inr ⟨differ, found⟩
  refine ⟨fun number there => ?_, fun other place found => ?_, fun recovery place found => ?_,
    fun first second place other found foundOther same => ?_,
    fun other recovery place there found foundTarget same => ?_, placed.unique⟩
  · rw [size]
    rcases member.mp there with rfl | known
    · exact Nat.lt_succ_self _
    · exact Nat.lt_succ_of_lt (placed.keys number known)
  · rcases slotPlace other place found with ⟨_, same⟩ | ⟨_, before⟩
    · exact member.mpr (.inl same)
    · exact member.mpr (.inr (placed.slot_mem other place before))
  · exact member.mpr (.inr (placed.target_mem recovery place found))
  · rcases slotPlace first place found with ⟨equal, number⟩ | ⟨_, before⟩ <;>
      rcases slotPlace second other foundOther with ⟨equalOther, numberOther⟩ | ⟨_, beforeOther⟩
    · exact equal.symm.trans equalOther
    · have known := placed.slot_mem second other beforeOther
      rw [← same, number] at known
      exact absurd known fresh
    · have known := placed.slot_mem first place before
      rw [same, numberOther] at known
      exact absurd known fresh
    · exact placed.apart first second place other before beforeOther same
  · rcases slotPlace other place found with ⟨_, number⟩ | ⟨differ, before⟩
    · have known := placed.target_mem recovery there foundTarget
      rw [same, number] at known
      exact absurd known fresh
    · rw [activeOf_register, if_neg differ]
      exact placed.active other recovery place there before foundTarget same

theorem spares_register {service : Service} (placed : service.Placed) (shard : ShardId)
    (store : String) (engine : Engine) :
    Spares service (service.register shard store engine) := by
  intro recovery registered found
  refine ⟨found, ?_⟩
  have known := placed.target_mem recovery _ (placeOf_eq_some found)
  rw [engineAt, register, Std.ExtTreeMap.getD_insert, if_neg]
  · rfl
  · intro same
    rw [← Std.LawfulEqCmp.compare_eq_iff_eq.mp same] at known
    exact Nat.lt_irrefl _ (placed.keys _ known)

theorem shrinks_retire (service : Service) (recovery : Int64) :
    Shrinks service (service.retire recovery) := by
  unfold retire
  cases service.targets[recovery]? with
  | none => exact .refl service
  | some registered =>
      refine (shrinks_erase service recovery).trans (shrinks_modifySlot (fun _ => rfl) ?_)
      intro previous found
      by_cases same : recovery = previous
      · refine .inr ?_
        rw [placeOf_erase, if_pos same]
      · refine .inl ?_
        rw [activeOf, Option.bind_eq_some_iff] at found
        obtain ⟨slot, there, running⟩ := found
        rw [activeOf, slots_modifySlot, if_pos rfl, there]
        dsimp only [Option.map_some, Option.bind_some]
        rw [running, if_neg fun equal => same (Option.some.inj equal).symm]

theorem spares_retire (service : Service) (recovery : Int64) :
    Spares service (service.retire recovery) := by
  unfold retire
  cases service.targets[recovery]? with
  | none => exact .refl service
  | some registered => exact (spares_erase service recovery).trans (spares_modifySlot _ _ _)

theorem engineAt_retire (service : Service) (recovery : Int64) (number : Nat) :
    (service.retire recovery).engineAt number = service.engineAt number := by
  unfold retire
  split <;> rfl

theorem targets_retire (service : Service) (recovery other : Int64) :
    (service.retire recovery).targets[other]? =
      if recovery = other then none else service.targets[other]? := by
  cases there : service.targets[recovery]? with
  | none =>
      rw [retire, there]
      dsimp only
      split
      · next same => rw [← same, there]
      · rfl
  | some registered =>
      rw [retire, there]
      exact targets_without service recovery other

theorem shrinks_forget (service : Service) (recovery : Int64) :
    Shrinks service (service.forget recovery).2 := by
  unfold forget
  split
  · exact .refl service
  · exact shrinks_annotate (fun _ => rfl) fun _ => rfl

theorem spares_forget (service : Service) (recovery : Int64) :
    Spares service (service.forget recovery).2 := by
  unfold forget
  split
  · exact .refl service
  · exact spares_modifySlot service _ _

theorem shrinks_remove (service : Service) (recovery : Int64) :
    Shrinks service (service.remove recovery).2 := by
  unfold remove
  split
  · exact shrinks_forget service recovery
  · split
    · exact (shrinks_retire service recovery).trans (shrinks_forget _ recovery)
    · exact .refl service

theorem spares_remove (service : Service) (recovery : Int64) :
    Spares service (service.remove recovery).2 := by
  unfold remove
  split
  · exact spares_forget service recovery
  · split
    · exact (spares_retire service recovery).trans (spares_forget _ recovery)
    · exact .refl service

theorem targets_insert (service : Service) (recovery other : Int64) (registered : Registered) :
    (service.targets.insert recovery registered)[other]? =
      if recovery = other then some registered else service.targets[other]? := by
  rw [Std.ExtTreeMap.getElem?_insert]
  simp only [Std.LawfulEqCmp.compare_eq_iff_eq]

/-- The service with a new target, which is the active recovery of a shard. -/
def opened (service : Service) (shard : ShardId) (recovery : Int64) (registered : Registered) :
    Service :=
  { service with targets := service.targets.insert recovery registered }.modifySlot shard
    fun slot => { slot with active? := some recovery }

/-- A shard that no target works for is given a new active recovery. -/
theorem placed_opened {service : Service} (placed : service.Placed) {shard : ShardId}
    {registered : Registered} (slot : service.slotPlace shard = some registered.place)
    (free : ∀ recovery other, service.placeOf recovery = some other →
      other.engine ≠ registered.place.engine) (number : Int64) :
    (service.opened shard number registered).Placed := by
  have target (recovery : Int64) (place : Place)
      (found : (service.opened shard number registered).placeOf recovery = some place) :
      (number = recovery ∧ place = registered.place) ∨
        (number ≠ recovery ∧ service.placeOf recovery = some place) := by
    rw [placeOf, opened, modifySlot, targets_insert] at found
    split at found
    · next same =>
        cases found
        exact .inl ⟨same, rfl⟩
    · next differ => exact .inr ⟨differ, found⟩
  have slots (other : ShardId) :
      (service.opened shard number registered).slotPlace other = service.slotPlace other := by
    rw [slotPlace, opened, slots_modifySlot]
    split
    · rw [Option.map_map]
      rfl
    · rfl
  refine ⟨placed.keys, fun other place found => ?_, fun recovery place found => ?_,
    fun first second place other found foundOther same => ?_,
    fun other recovery place there found foundTarget same => ?_,
    fun first second place other found foundOther same => ?_⟩
  · rw [slots] at found
    exact placed.slot_mem other place found
  · rcases target recovery place found with ⟨_, equal⟩ | ⟨_, before⟩
    · rw [equal]
      exact placed.slot_mem shard _ slot
    · exact placed.target_mem recovery place before
  · rw [slots] at found foundOther
    exact placed.apart first second place other found foundOther same
  · rw [slots] at found
    rw [activeOf, opened, slots_modifySlot]
    rcases target recovery there foundTarget with ⟨rfl, equal⟩ | ⟨_, before⟩
    · rw [equal] at same
      have own := placed.apart shard other registered.place place slot found same
      rw [if_pos own]
      rw [slotPlace, Option.map_eq_some_iff] at found
      obtain ⟨kept, known, _⟩ := found
      have known : service.slots[other]? = some kept := known
      change (service.slots[other]?.map _).bind _ = _
      rw [known]
      rfl
    · split
      · next own =>
          rw [own, found] at slot
          cases slot
          exact absurd same (free recovery there before)
      · exact placed.active other recovery place there found before same
  · rcases target first place found with ⟨equal, samePlace⟩ | ⟨_, before⟩ <;>
      rcases target second other foundOther with ⟨equalOther, samePlaceOther⟩ | ⟨_, beforeOther⟩
    · exact equal.symm.trans equalOther
    · rw [samePlace] at same
      exact absurd same.symm (free second other beforeOther)
    · rw [samePlaceOther] at same
      exact absurd same (free first place before)
    · exact placed.unique first second place other before beforeOther same

/-- What starting a recovery does: nothing, or an end of the active recovery of
the shard, after which there may be a new one at the place of the shard. -/
theorem startRecovery_cases (service : Service) (shard : ShardId) (source : NodeId) :
    (service.startRecovery shard source).2 = service ∨
    ∃ place superseded, service.slotPlace shard = some place ∧
      superseded = supersede { service with issued := service.issued + 1 } shard
        (.ofNat (service.issued + 1)) ∧
      ((service.startRecovery shard source).2 = superseded ∨
        (service.startRecovery shard source).2 =
          superseded.opened shard (.ofNat (service.issued + 1))
            { target := { recovery := .ofNat (service.issued + 1), shard }, place }) := by
  unfold startRecovery
  cases found : service.slots[shard]? with
  | none => exact .inl rfl
  | some slot =>
      refine .inr ⟨slot.place, _, by rw [slotPlace, found]; rfl, rfl, ?_⟩
      dsimp only
      split
      · exact .inl rfl
      · exact .inr rfl

theorem placed_startRecovery {service : Service} (placed : service.Placed) (shard : ShardId)
    (source : NodeId) : (service.startRecovery shard source).2.Placed := by
  rcases startRecovery_cases service shard source with same | ⟨place, superseded, slot, ends, outcome⟩
  · rw [same]
    exact placed
  · have numbered : Placed { service with issued := service.issued + 1 } :=
      ⟨placed.keys, placed.slot_mem, placed.target_mem, placed.apart, placed.active, placed.unique⟩
    have shrinks := shrinks_supersede numbered shard (.ofNat (service.issued + 1))
    rw [← ends] at shrinks
    have after := numbered.shrinks shrinks
    rcases outcome with same | same
    · rw [same]
      exact after
    · have here : superseded.slotPlace shard = some place := (shrinks.slots shard).trans slot
      rw [same]
      refine placed_opened after here (fun recovery other found => ?_) _
      rw [ends] at found
      exact free_supersede numbered slot found

/-- A recovery that is started is at its beginning; the others are spared. -/
theorem spares_startRecovery {service : Service} (placed : service.Placed) (shard : ShardId)
    (source : NodeId) (recovery : Int64) (registered : Registered)
    (found : (service.startRecovery shard source).2.targets[recovery]? = some registered) :
    registered.target = { recovery, shard } ∨
      service.targets[recovery]? = some registered ∧
        (service.startRecovery shard source).2.engineAt registered.place.engine =
          service.engineAt registered.place.engine := by
  rcases startRecovery_cases service shard source with same | ⟨place, superseded, slot, ends, outcome⟩
  · rw [same] at found ⊢
    exact .inr ⟨found, rfl⟩
  · have numbered : Placed { service with issued := service.issued + 1 } :=
      ⟨placed.keys, placed.slot_mem, placed.target_mem, placed.apart, placed.active, placed.unique⟩
    have spares := spares_supersede numbered shard (.ofNat (service.issued + 1))
    rw [← ends] at spares
    rcases outcome with same | same
    · rw [same] at found ⊢
      exact .inr (spares recovery registered found)
    · rw [same] at found ⊢
      rw [opened, modifySlot, targets_insert] at found
      split at found
      · next own =>
          cases found
          exact .inl (own ▸ rfl)
      · exact .inr (spares recovery registered found)

/-- The service after a target has worked on its copy. -/
def worked (service : Service) (recovery : Int64) (registered : Registered)
    (receiver : Receiver) : Service :=
  { service.keep registered.place receiver with
    targets := service.targets.insert recovery { registered with target := receiver.target } }

theorem targets_worked (service : Service) (recovery other : Int64) (registered : Registered)
    (receiver : Receiver) :
    (service.worked recovery registered receiver).targets[other]? =
      if recovery = other then some { registered with target := receiver.target }
      else service.targets[other]? :=
  targets_insert service recovery other _

theorem engineAt_worked (service : Service) (recovery : Int64) (registered : Registered)
    (receiver : Receiver) (number : Nat) :
    (service.worked recovery registered receiver).engineAt number =
      if registered.place.engine = number then receiver.copy.engine
      else service.engineAt number :=
  engineAt_keep service registered.place receiver number

theorem shrinks_worked {service : Service} (placed : service.Placed) {recovery : Int64}
    {registered : Registered} (there : service.targets[recovery]? = some registered)
    (receiver : Receiver) : Shrinks service (service.worked recovery registered receiver) := by
  have kept := shrinks_keep (placed.target_mem recovery _ (placeOf_eq_some there)) receiver
  refine ⟨kept.size, kept.engines, kept.slots, fun other place found => ?_, fun _ _ found => .inl found⟩
  rw [placeOf, targets_worked] at found
  split at found
  · next same =>
      rw [← same, placeOf_eq_some there, ← found]
      rfl
  · exact found

theorem spares_worked {service : Service} (placed : service.Placed) {recovery : Int64}
    {registered : Registered} (there : service.targets[recovery]? = some registered)
    (receiver : Receiver) {other : Int64} (differ : recovery ≠ other) {spared : Registered}
    (found : (service.worked recovery registered receiver).targets[other]? = some spared) :
    service.targets[other]? = some spared ∧
      (service.worked recovery registered receiver).engineAt spared.place.engine =
        service.engineAt spared.place.engine := by
  rw [targets_worked, if_neg differ] at found
  refine ⟨found, ?_⟩
  rw [engineAt_worked, if_neg]
  intro same
  exact differ (placed.unique _ _ _ _ (placeOf_eq_some there) (placeOf_eq_some found) same)

theorem handle_of_registered {service : Service} {request : Request} {registered : Registered}
    (there : service.targets[request.recovery]? = some registered)
    (shard : registered.target.shard = request.shard) :
    service.handle request =
      (((service.receiver registered).handle request).1,
        if ((service.receiver registered).handle request).2.isOver then
          (service.worked request.recovery registered
            ((service.receiver registered).handle request).2).retire request.recovery
        else service.worked request.recovery registered
          ((service.receiver registered).handle request).2) := by
  unfold handle
  rw [there]
  dsimp only
  rw [if_neg (fun differ => differ shard)]
  rfl

/-- A request to another shard, or to no registered target, changes nothing. -/
theorem handle_of_stray {service : Service} {request : Request}
    (stray : ∀ registered, service.targets[request.recovery]? = some registered →
      registered.target.shard ≠ request.shard) :
    (service.handle request).2 = service ∧
      ((service.handle request).1 = .ack ∨ ∃ error, (service.handle request).1 = .ofError error) := by
  unfold handle
  cases there : service.targets[request.recovery]? with
  | none =>
      cases request with
      | cancel recovery shard reason => exact ⟨rfl, .inl rfl⟩
      | step number recovery shard command => exact ⟨rfl, .inr ⟨_, rfl⟩⟩
  | some registered =>
      dsimp only
      rw [if_pos (stray registered there)]
      exact ⟨rfl, .inr ⟨_, rfl⟩⟩

end ShardSync.Recovery.Service
