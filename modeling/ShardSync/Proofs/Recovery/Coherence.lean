import ShardSync.Proofs.Recovery.Callers
import ShardSync.Proofs.Recovery.Numbering

/-!
# Targets in and out of the registry

However the moves of callers interleave, a target that has been dropped from the
registry is over, and is not registered again as long as the numbers of recoveries last.
-/

set_option autoImplicit false

namespace ShardSync.Recovery

def Registered.isOver (registered : Registered) : Bool :=
  registered.target.progress.isTerminal

/-- A target that is over stays as it is. -/
theorem Receiver.Answer.rests {receiver after : Receiver} {request : Request} {reply : Reply}
    (answer : receiver.Answer request reply after) (ended : receiver.isOver = true) :
    after = receiver := by
  cases answer with
  | cancelled => exact cancel_of_isOver ended _
  | refused => rfl
  | performed going => cases ended.symm.trans going
  | failed going => cases ended.symm.trans going

namespace Service

variable {service : Service} {shard : ShardId} {recovery : Int64} {registered : Registered}

theorem displacedBy_eq_some {previous : Int64} {left : Registered} :
    service.displacedBy shard = some (previous, left) ↔
      service.activeOf shard = some previous ∧ ∃ registered,
        service.targets[previous]? = some registered ∧
        { registered with target := (service.displaced shard previous
          (.ofNat (service.issued + 1)) registered).target } = left := by
  simp only [displacedBy, Option.bind_eq_some_iff, Option.map_eq_some_iff, Prod.mk.injEq]
  constructor
  · rintro ⟨_, active, registered, there, rfl, same⟩
    exact ⟨active, registered, there, same⟩
  · rintro ⟨active, registered, there, same⟩
    exact ⟨previous, active, registered, there, rfl, same⟩

theorem displacedBy_eq_none :
    service.displacedBy shard = none ↔
      ∀ previous, service.activeOf shard = some previous → service.targets[previous]? = none := by
  simp [displacedBy]

/-- What makes way for a new recovery has been cancelled, unless it was over. -/
theorem displaced_eq_cancel (service : Service) (shard : ShardId) (previous successor : Int64)
    (registered : Registered) :
    ∃ reason journal, service.displaced shard previous successor registered =
      { (service.receiver registered).cancel reason with journal } := by
  refine ⟨s!"superseded by recovery [{successor}]",
    (service.displaced shard previous successor registered).journal, ?_⟩
  unfold displaced
  split
  · next ended => rw [@Receiver.cancel_of_isOver (service.receiver registered) ended]
  · rfl

def storeAt (service : Service) (name : String) : Store := service.stores.getD name {}

theorem storeAt_keep (service : Service) (place : Place) (receiver : Receiver) (name : String) :
    (service.keep place receiver).storeAt name =
      if name = place.store then receiver.copy.store else service.storeAt name := by
  rw [storeAt, keep, Std.ExtTreeMap.getD_insert]
  by_cases same : place.store = name
  · rw [if_pos same.symm, if_pos (Std.LawfulEqCmp.compare_eq_iff_eq.mpr same)]
  · rw [if_neg (Ne.symm same), if_neg fun equal => same (Std.LawfulEqCmp.compare_eq_iff_eq.mp equal)]
    rfl

theorem superseded_of_none (idle : service.displacedBy shard = none) :
    (service.superseded shard).targets = service.targets ∧
      (service.superseded shard).storeAt = service.storeAt := by
  rcases supersede_cases { service with issued := service.issued + 1 } shard
      (.ofNat (service.issued + 1)) with
    ⟨_, same⟩ | ⟨_, _, _, same⟩ | ⟨previous, registered, _, _, active, there, _⟩
  · rw [superseded, same]
    exact ⟨rfl, rfl⟩
  · rw [superseded, same]
    exact ⟨rfl, rfl⟩
  · have gone := displacedBy_eq_none.mp idle previous active
    rw [show service.targets[previous]? = some registered from there] at gone
    cases gone

theorem superseded_of_some {previous : Int64}
    (active : service.activeOf shard = some previous)
    (there : service.targets[previous]? = some registered) :
    (∀ other, (service.superseded shard).targets[other]? =
      if previous = other then none else service.targets[other]?) ∧
    ∀ name, (service.superseded shard).storeAt name =
      if name = registered.place.store then
        (service.displaced shard previous (.ofNat (service.issued + 1)) registered).copy.store
      else service.storeAt name := by
  have equation := @supersede_of_active { service with issued := service.issued + 1 } previous
    registered shard active there (.ofNat (service.issued + 1))
  rw [superseded, equation]
  constructor
  · intro other
    exact targets_without service previous other
  · intro name
    exact storeAt_keep ..

end Service

namespace Shared

variable {shared : Shared} {shard : ShardId} {recovery : Int64} {registered : Registered}

theorem target?_worked (shared : Shared) (recovery : Int64) (registered : Registered)
    (receiver : Receiver) :
    (shared.worked recovery registered receiver).target? =
      Function.update shared.target? recovery
        (some { registered with target := receiver.target }) := by
  funext other
  rw [Function.update_apply]
  cases current : shared.service.targets[recovery]? with
  | some _ =>
      rw [worked_of_registered current, target?, Service.targets_worked]
      by_cases same : recovery = other
      · rw [if_pos same, if_pos same.symm, Option.some_or]
      · rw [if_neg same, if_neg (Ne.symm same)]
        rfl
  | none =>
      rw [worked_of_unregistered current, target?]
      change shared.service.targets[other]?.or ((shared.drop _ _).dropped other) = _
      rw [dropped_drop]
      by_cases same : recovery = other
      · rw [if_pos same, if_pos same.symm, ← same, current, Option.none_or]
      · rw [if_neg same, if_neg (Ne.symm same)]
        rfl

theorem target?_retired (shared : Shared) (recovery : Int64) :
    (shared.retired recovery).target? = shared.target? := by
  funext other
  unfold retired
  cases there : shared.service.targets[recovery]? with
  | none => rw [Service.retire, there]
  | some registered =>
      change (shared.service.retire recovery).targets[other]?.or
        ((shared.drop recovery registered).dropped other) = _
      rw [Service.targets_retire, dropped_drop]
      split
      · next same => rw [← same, target?_of_registered there, Option.none_or]
      · rfl

/-- The shard has no active recovery any more, and no new one yet. -/
def makeWay (shared : Shared) (shard : ShardId) : Shared :=
  { (match shared.service.displacedBy shard with
    | none => shared
    | some (previous, registered) => shared.drop previous registered) with
    service := shared.service.superseded shard }

def opened (shared : Shared) (shard : ShardId) (recovery : Int64) (place : Place) : Shared :=
  { shared with
    service := shared.service.opened shard recovery { target := { recovery, shard }, place } }

theorem target?_opened (shared : Shared) (shard : ShardId) (recovery : Int64) (place : Place) :
    (shared.opened shard recovery place).target? =
      Function.update shared.target? recovery
        (some { target := { recovery, shard }, place }) := by
  funext other
  rw [Function.update_apply, target?, opened, Service.targets_opened]
  by_cases same : recovery = other
  · rw [if_pos same, if_pos same.symm, Option.some_or]
  · rw [if_neg same, if_neg (Ne.symm same)]
    rfl

theorem makeWay_of_none (idle : shared.service.displacedBy shard = none) :
    shared.makeWay shard = { shared with service := shared.service.superseded shard } := by
  rw [makeWay, idle]

theorem makeWay_of_some {previous : Int64}
    (displaced : shared.service.displacedBy shard = some (previous, registered)) :
    shared.makeWay shard =
      { shared.drop previous registered with service := shared.service.superseded shard } := by
  rw [makeWay, displaced]

theorem target?_makeWay_of_none (idle : shared.service.displacedBy shard = none) :
    (shared.makeWay shard).target? = shared.target? := by
  funext other
  rw [makeWay_of_none idle, target?, (Service.superseded_of_none idle).1]
  rfl

theorem target?_makeWay_of_some {previous : Int64}
    (displaced : shared.service.displacedBy shard = some (previous, registered)) :
    (shared.makeWay shard).target? =
      Function.update shared.target? previous (some registered) := by
  obtain ⟨active, before, there, _⟩ := Service.displacedBy_eq_some.mp displaced
  funext other
  rw [makeWay_of_some displaced, target?, Function.update_apply,
    (Service.superseded_of_some active there).1]
  change Option.or _ ((shared.drop _ _).dropped other) = _
  rw [dropped_drop]
  by_cases same : previous = other
  · rw [if_pos same, if_pos same, if_pos same.symm, Option.none_or]
  · rw [if_neg same, if_neg same, if_neg (Ne.symm same)]
    rfl

/-- A recovery is started in two steps: the active one makes way, and the new one is
entered. -/
theorem start_cases (shared : Shared) (shard : ShardId) (source : NodeId) :
    (shared.start shard source = shared) ∨ shared.start shard source = shared.makeWay shard ∨
    ∃ start place, (shared.service.startRecovery shard source).1 = .ok start ∧
      shared.service.slotPlace shard = some place ∧
      start.recovery = .ofNat (shared.service.issued + 1) ∧
      shared.start shard source = (shared.makeWay shard).opened shard start.recovery place := by
  unfold start
  cases started : shared.service.startRecovery shard source with
  | mk outcome after =>
      cases outcome with
      | error error =>
          rcases Service.startRecovery_outcome shared.service shard source with
            ⟨idle, _, same⟩ | ⟨_, same⟩ | ⟨_, _, same⟩
          · rw [started] at same
            cases same
            have none : shared.service.displacedBy shard = none :=
              Service.displacedBy_eq_none.mpr fun previous active => by
                rw [idle] at active
                cases active
            rw [none]
            exact .inl rfl
          · rw [started] at same
            cases same
            exact .inr (.inl rfl)
          · rw [started] at same
            cases same
      | ok start =>
          obtain ⟨place, slot, number, _, _, _, rfl⟩ := Service.startRecovery_ok started
          exact .inr (.inr ⟨start, place, rfl, slot, number, rfl⟩)

/-- No target is new or has moved, and none that is over goes on. -/
structure Carries (before after : Shared) : Prop where
  descends : ∀ (recovery : Int64) (registered : Registered),
    after.target? recovery = some registered →
      ∃ earlier, before.target? recovery = some earlier ∧ earlier.place = registered.place
  rests : ∀ (recovery : Int64) (registered : Registered),
    before.target? recovery = some registered → registered.isOver = true →
      ∃ later, after.target? recovery = some later ∧ later.isOver = true

theorem Carries.of_same {before after : Shared} (targets : after.target? = before.target?) :
    Carries before after where
  descends _ registered there := ⟨registered, targets ▸ there, rfl⟩
  rests _ registered there ended := ⟨registered, targets ▸ there, ended⟩

theorem Carries.of_update {before after : Shared} {later : Registered}
    (there : before.target? recovery = some registered)
    (targets : after.target? = Function.update before.target? recovery (some later))
    (place : later.place = registered.place)
    (rests : registered.isOver = true → later.isOver = true) : Carries before after where
  descends other found reached := by
    rw [targets, Function.update_apply] at reached
    split at reached
    · next same =>
        cases reached
        exact ⟨registered, same ▸ there, place.symm⟩
    · exact ⟨found, reached, rfl⟩
  rests other found reached ended := by
    rw [targets, Function.update_apply]
    split
    · next same =>
        rw [same, there] at reached
        cases reached
        exact ⟨later, rfl, rests ended⟩
    · exact ⟨found, reached, ended⟩

theorem carries_makeWay (shared : Shared) (shard : ShardId) :
    Carries shared (shared.makeWay shard) := by
  cases displaced : shared.service.displacedBy shard with
  | none => exact .of_same (target?_makeWay_of_none displaced)
  | some entry =>
      obtain ⟨previous, left⟩ := entry
      obtain ⟨_, registered, there, rfl⟩ := Service.displacedBy_eq_some.mp displaced
      exact .of_update (target?_of_registered there) (target?_makeWay_of_some displaced) rfl
        fun _ => Service.isOver_displaced ..

/-- What has been dropped is over and not registered. -/
def Settled (shared : Shared) : Prop :=
  ∀ (recovery : Int64) (registered : Registered), shared.dropped recovery = some registered →
    registered.isOver = true ∧ shared.service.targets[recovery]? = none

theorem Settled.shrinks {service : Service} (settled : shared.Settled)
    (shrinks : Service.Shrinks shared.service service) : Settled { shared with service } :=
  fun recovery registered dropped =>
    (settled recovery registered dropped).imp_right shrinks.gone

theorem Settled.drop {service : Service} (settled : Settled { shared with service })
    (ended : registered.isOver = true) (gone : service.targets[recovery]? = none) :
    Settled { shared.drop recovery registered with service } := by
  intro other found dropped
  dsimp only at dropped ⊢
  rw [dropped_drop] at dropped
  split at dropped
  · next same =>
      cases dropped
      exact ⟨ended, same ▸ gone⟩
  · exact settled other found dropped

structure Coherent (shared : Shared) : Prop where
  placed : shared.service.Placed
  issued : ∀ recovery, shared.target? recovery ≠ none → shared.service.HasIssued recovery
  known : ∀ (recovery : Int64) (registered : Registered),
    shared.target? recovery = some registered → registered.place.engine ∈ shared.service.engines
  settled : shared.Settled
  /-- A caller retires only what is over. -/
  retiring : ∀ caller recovery reply, shared.callers caller = .retiring recovery reply →
    ∃ registered, shared.target? recovery = some registered ∧ registered.isOver = true

namespace Coherent

theorem begun (node : NodeId) (stores : Std.ExtTreeMap String Store) :
    Coherent { service := { node, stores } } where
  placed := (Service.placed_empty node).shrinks (.of_same rfl rfl rfl)
  issued _ there := by simp [target?] at there
  known _ _ there := by simp [target?] at there
  settled _ _ there := by cases there
  retiring _ _ _ there := by cases there

theorem carried {after : Shared} (coherent : shared.Coherent) (carries : Carries shared after)
    (shrinks : Service.Shrinks shared.service after.service)
    (issued : shared.service.issued ≤ after.service.issued)
    (callers : after.callers = shared.callers) (settled : after.Settled) : after.Coherent where
  placed := coherent.placed.shrinks shrinks
  issued recovery there := by
    obtain ⟨registered, found⟩ := Option.ne_none_iff_exists'.mp there
    obtain ⟨earlier, before, _⟩ := carries.descends recovery registered found
    obtain ⟨number, positive, below, same⟩ := coherent.issued recovery (before ▸ nofun)
    exact ⟨number, positive, below.trans issued, same⟩
  known recovery registered there := by
    obtain ⟨earlier, before, place⟩ := carries.descends recovery registered there
    rw [shrinks.engines, ← place]
    exact coherent.known recovery earlier before
  settled := settled
  retiring caller recovery reply there := by
    rw [callers] at there
    obtain ⟨registered, found, ended⟩ := coherent.retiring caller recovery reply there
    exact carries.rests recovery registered found ended

theorem setCaller (coherent : shared.Coherent) (caller : Nat) {state : Caller}
    (proper : ∀ recovery reply, state = .retiring recovery reply →
      ∃ registered, shared.target? recovery = some registered ∧ registered.isOver = true) :
    (shared.setCaller caller state).Coherent where
  placed := coherent.placed
  issued := coherent.issued
  known := coherent.known
  settled := coherent.settled
  retiring other recovery reply found := by
    rw [callers_setCaller] at found
    split at found
    · exact proper recovery reply found
    · exact coherent.retiring other recovery reply found

theorem register (coherent : shared.Coherent) (shard : ShardId) (store : String)
    (engine : Engine) :
    Coherent { shared with service := shared.service.register shard store engine } where
  placed := Service.placed_register coherent.placed shard store engine
  issued := coherent.issued
  known recovery registered there :=
    Std.ExtTreeMap.mem_insert.mpr (.inr (coherent.known recovery registered there))
  settled := coherent.settled
  retiring := coherent.retiring

theorem worked {receiver : Receiver} (coherent : shared.Coherent)
    (there : shared.target? recovery = some registered)
    (rests : registered.isOver = true → receiver.isOver = true) :
    (shared.worked recovery registered receiver).Coherent := by
  have carries : Carries shared (shared.worked recovery registered receiver) :=
    .of_update there (target?_worked shared recovery registered receiver) rfl rests
  cases current : shared.service.targets[recovery]? with
  | some found =>
      obtain rfl : found = registered :=
        Option.some.inj ((target?_of_registered current).symm.trans there)
      have shrinks := Service.shrinks_worked coherent.placed current receiver
      rw [worked_of_registered current] at carries ⊢
      exact coherent.carried carries shrinks le_rfl rfl (coherent.settled.shrinks shrinks)
  | none =>
      have gone := (target?_of_unregistered current).symm.trans there
      have ended := (coherent.settled recovery registered gone).1
      have shrinks := Service.shrinks_keep (coherent.known recovery registered there) receiver
      rw [worked_of_unregistered current] at carries ⊢
      exact coherent.carried carries shrinks le_rfl rfl
        ((coherent.settled.shrinks shrinks).drop (rests ended) current)

theorem retired (coherent : shared.Coherent) (there : shared.target? recovery = some registered)
    (ended : registered.isOver = true) : (shared.retired recovery).Coherent := by
  have carries := Carries.of_same (target?_retired shared recovery)
  have shrinks := Service.shrinks_retire shared.service recovery
  have issued := (Service.issued_retire shared.service recovery).ge
  have settled := coherent.settled.shrinks shrinks
  cases current : shared.service.targets[recovery]? with
  | none =>
      rw [retired_of_unregistered current] at carries ⊢
      exact coherent.carried carries shrinks issued rfl settled
  | some found =>
      obtain rfl : found = registered :=
        Option.some.inj ((target?_of_registered current).symm.trans there)
      rw [retired_of_registered current] at carries ⊢
      refine coherent.carried carries shrinks issued rfl (settled.drop ended ?_)
      exact (Service.targets_retire ..).trans (if_pos rfl)

theorem makeWay (coherent : shared.Coherent) (shard : ShardId) :
    (shared.makeWay shard).Coherent := by
  have carries := carries_makeWay shared shard
  have shrinks := Service.shrinks_superseded coherent.placed shard
  have issued : shared.service.issued ≤ (shared.service.superseded shard).issued := by
    rw [Service.issued_superseded]
    exact Nat.le_succ _
  have settled := coherent.settled.shrinks shrinks
  cases displaced : shared.service.displacedBy shard with
  | none =>
      rw [makeWay_of_none displaced] at carries ⊢
      exact coherent.carried carries shrinks issued rfl settled
  | some entry =>
      obtain ⟨previous, left⟩ := entry
      obtain ⟨active, registered, there, rfl⟩ := Service.displacedBy_eq_some.mp displaced
      rw [makeWay_of_some displaced] at carries ⊢
      refine coherent.carried carries shrinks issued rfl
        (settled.drop (Service.isOver_displaced ..) ?_)
      exact ((Service.superseded_of_some active there).1 previous).trans (if_pos rfl)

theorem opened {place : Place} (coherent : shared.Coherent)
    (slot : shared.service.slotPlace shard = some place)
    (free : ∀ recovery other, shared.service.placeOf recovery = some other →
      other.engine ≠ place.engine)
    (fresh : shared.target? recovery = none) (issued : shared.service.HasIssued recovery) :
    (shared.opened shard recovery place).Coherent := by
  have targets := target?_opened shared shard recovery place
  have others {other : Int64} {found : Registered} (there : shared.target? other = some found) :
      (shared.opened shard recovery place).target? other = some found := by
    rw [targets, Function.update_apply, if_neg]
    · exact there
    · rintro rfl
      rw [fresh] at there
      cases there
  constructor
  case placed => exact Service.placed_opened coherent.placed slot free recovery
  case issued =>
    intro other there
    rw [targets, Function.update_apply] at there
    split at there
    · next same => exact same ▸ issued
    · exact coherent.issued other there
  case known =>
    intro other found there
    rw [targets, Function.update_apply] at there
    split at there
    · cases there
      exact coherent.placed.slot_mem shard place slot
    · exact coherent.known other found there
  case settled =>
    intro other dropped gone
    obtain ⟨ended, unregistered⟩ := coherent.settled other dropped gone
    refine ⟨ended, ?_⟩
    rw [Shared.opened, Service.targets_opened, if_neg]
    · exact unregistered
    · rintro rfl
      rw [target?_of_unregistered unregistered] at fresh
      rw [show shared.dropped recovery = some dropped from gone] at fresh
      cases fresh
  case retiring =>
    intro caller other reply found
    obtain ⟨registered, there, ended⟩ := coherent.retiring caller other reply found
    exact ⟨registered, others there, ended⟩

/-- As long as the numbers last, a recovery that is started has a new one. -/
theorem fresh_start (coherent : shared.Coherent) (lasting : shared.service.issued + 1 < 2 ^ 64)
    (shard : ShardId) :
    (shared.makeWay shard).target? (.ofNat (shared.service.issued + 1)) = none := by
  by_contra there
  obtain ⟨registered, found⟩ := Option.ne_none_iff_exists'.mp there
  obtain ⟨earlier, before, _⟩ := (carries_makeWay shared shard).descends _ registered found
  obtain ⟨number, _, below, same⟩ := coherent.issued _ (Option.ne_none_iff_exists'.mpr ⟨_, before⟩)
  rw [Service.number_inj (by omega) (by omega)] at same
  omega

theorem start (coherent : shared.Coherent) {source : NodeId}
    (lasting : (shared.start shard source).service.issued < 2 ^ 64) :
    (shared.start shard source).Coherent := by
  have between := coherent.makeWay shard
  rcases start_cases shared shard source with same | same | ⟨start, place, _, slot, number, same⟩
  · rwa [same]
  · rwa [same]
  · have issued := Service.issued_superseded shared.service shard
    rw [same] at lasting ⊢
    have lasting : shared.service.issued + 1 < 2 ^ 64 := issued ▸ lasting
    have here : (shared.service.superseded shard).slotPlace shard = some place :=
      (Service.slotPlace_superseded ..).trans slot
    refine between.opened here (fun recovery other found engine => ?_)
      (number ▸ coherent.fresh_start lasting shard)
      ⟨shared.service.issued + 1, Nat.succ_pos _, issued.ge, number⟩
    have active := between.placed.active shard recovery place other here found engine
    have free := Service.activeOf_superseded shared.service shard shard
    rw [if_pos rfl] at free
    rw [show (shared.service.superseded shard).activeOf shard = some recovery from active] at free
    cases free

end Coherent

theorem issued_le_next (shared : Shared) (move : Move) :
    shared.service.issued ≤ (shared.next move).service.issued := by
  have takes := takes_next shared move
  generalize shared.next move = after at takes
  cases takes with
  | none => exact le_rfl
  | registers => exact le_rfl
  | turns => exact le_rfl
  | starts shard source =>
      exact Service.issued_le_answered shared.service (.event (.start shard source))
  | works =>
      simp only [setCaller, worked]
      split <;> exact le_rfl
  | retires => exact (Service.issued_retire ..).ge
  | skips => exact Nat.le_succ _

theorem Coherent.next (coherent : shared.Coherent) {move : Move}
    (lasting : (shared.next move).service.issued < 2 ^ 64) : (shared.next move).Coherent := by
  have takes := takes_next shared move
  generalize shared.next move = after at takes lasting
  cases takes with
  | none => exact coherent
  | registers shard store engine => exact coherent.register shard store engine
  | turns _ caller waiting => exact coherent.setCaller caller fun _ _ same => absurd same (waiting _ _)
  | starts => exact coherent.start lasting
  | @works caller request registered holds there reply receiver answer =>
      have rests (ended : registered.isOver = true) : receiver.isOver = true :=
        answer.rests ended ▸ ended
      refine (coherent.worked there rests).setCaller caller fun recovery other same => ?_
      rw [target?_worked]
      split at same
      · next ended =>
          cases same
          exact ⟨{ registered with target := receiver.target }, Function.update_self .., ended⟩
      · cases same
  | @retires caller recovery reply holds =>
      obtain ⟨registered, there, ended⟩ := coherent.retiring caller recovery reply holds
      exact (coherent.retired there ended).setCaller caller fun _ _ same => by cases same
  | skips =>
      exact coherent.carried (.of_same rfl) (.of_same rfl rfl rfl) (Nat.le_succ _) rfl
        coherent.settled

theorem issued_le_run (node : NodeId) (stores : Std.ExtTreeMap String Store)
    (moves later : List Move) :
    (run node stores moves).service.issued ≤ (run node stores (moves ++ later)).service.issued := by
  induction later using List.reverseRecOn with
  | nil => rw [List.append_nil]
  | append_singleton later move ih =>
      rw [← List.append_assoc, run_concat]
      exact ih.trans (issued_le_next _ move)

theorem coherent_run (node : NodeId) (stores : Std.ExtTreeMap String Store) (moves : List Move)
    (lasting : (run node stores moves).service.issued < 2 ^ 64) :
    (run node stores moves).Coherent := by
  induction moves using List.reverseRecOn with
  | nil => exact .begun node stores
  | append_singleton moves move ih =>
      have earlier := (issued_le_run node stores moves [move]).trans_lt lasting
      rw [run_concat] at lasting ⊢
      exact (ih earlier).next lasting

end Shared

end ShardSync.Recovery
