import ShardSync.Proofs.Recovery.Numbering

/-!
# What a request leaves alone

A request that finds no target changes nothing and is refused. A request that finds
one changes nothing of another shard, if no two shards share a store.
-/

set_option autoImplicit false

namespace ShardSync.Recovery.Service

/-- The request finds a target, and names the shard of that. -/
def Accepts (service : Service) (request : Request) : Prop :=
  ∃ registered, service.targets[request.recovery]? = some registered ∧
    registered.target.shard = request.shard

/-- The answer to the bytes is a failure; or they are a cancellation of a recovery that is
not registered, and are acknowledged. -/
def Refuses (service : Service) (input : Bytes) : Prop :=
  (∃ code detail, (service.handleBytes input).1 = (Reply.failure code detail).write) ∨
    (service.handleBytes input).1 = Reply.ack.write ∧
      ∃ recovery shard reason, Request.decode input = .ok (.cancel recovery shard reason) ∧
        service.targets[recovery]? = none

/-- Nothing of the shard differs: neither what is kept for it, nor its recoveries, nor the
files and the engine of the one or of the others. -/
structure SameShard (before after : Service) (shard : ShardId) : Prop where
  slot : after.slots[shard]? = before.slots[shard]?
  copy : ∀ place, before.slotPlace shard = some place → after.copyAt place = before.copyAt place
  targets : ∀ (recovery : Int64) (registered : Registered), registered.target.shard = shard →
    (after.targets[recovery]? = some registered ↔ before.targets[recovery]? = some registered)
  copies : ∀ (recovery : Int64) (registered : Registered),
    before.targets[recovery]? = some registered → registered.target.shard = shard →
      after.copyAt registered.place = before.copyAt registered.place

/-- The call makes the shard recoverable, with the files of the store. -/
def Houses (call : Call) (shard : ShardId) (store : String) : Prop :=
  ∃ engine, call = .event (.register shard store engine)

/-- No two shards share a store. -/
def Apart (calls : List Call) : Prop :=
  ∀ first ∈ calls, ∀ second ∈ calls, ∀ shard other store,
    Houses first shard store → Houses second other store → shard = other

/-- The shards and their recoveries are where they have been registered, and no recovery
works on the engine of another shard. -/
structure Housed (home : ShardId → String → Prop) (service : Service) : Prop where
  slots : ∀ shard place, service.slotPlace shard = some place → home shard place.store
  targets : ∀ (recovery : Int64) (registered : Registered),
    service.targets[recovery]? = some registered →
      home registered.target.shard registered.place.store
  own : ∀ shard place (recovery : Int64) (registered : Registered),
    service.slotPlace shard = some place → service.targets[recovery]? = some registered →
      registered.place.engine = place.engine → registered.target.shard = shard

/-- Every target was a target before, of the same shard and at the same place. -/
def Descends (before after : Service) : Prop :=
  ∀ (recovery : Int64) (registered : Registered), after.targets[recovery]? = some registered →
    ∃ earlier, before.targets[recovery]? = some earlier ∧
      earlier.target.shard = registered.target.shard ∧ earlier.place = registered.place

variable {service : Service} {home : ShardId → String → Prop} {input : Bytes} {request : Request}

theorem handleBytes_of_decode (decoded : Request.decode input = .ok request)
    (service : Service) :
    service.handleBytes input = ((service.handle request).1.write, (service.handle request).2) := by
  rw [handleBytes, decoded]

/-- What finds no target changes nothing and is refused. -/
theorem refuses_of_stray
    (stray : ∀ request, Request.decode input = .ok request → ¬ service.Accepts request) :
    (service.handleBytes input).2 = service ∧ service.Refuses input := by
  cases decoded : Request.decode input with
  | error error =>
      have failed :
          service.handleBytes input = ((Reply.ofError (.ofDecoding error)).write, service) := by
        rw [handleBytes, decoded]
      unfold Refuses
      rw [failed]
      exact ⟨rfl, .inl ⟨_, _, rfl⟩⟩
  | ok request =>
      have refused := stray request decoded
      unfold Refuses
      rw [handleBytes_of_decode decoded]
      cases there : service.targets[request.recovery]? with
      | some registered =>
          have other : registered.target.shard ≠ request.shard :=
            fun own => refused ⟨registered, there, own⟩
          unfold handle
          rw [there]
          dsimp only
          rw [if_pos other]
          exact ⟨rfl, .inl ⟨_, _, rfl⟩⟩
      | none =>
          cases request with
          | step number recovery shard command =>
              unfold handle
              rw [there]
              exact ⟨rfl, .inl ⟨_, _, rfl⟩⟩
          | cancel recovery shard reason =>
              unfold handle
              rw [there]
              exact ⟨rfl, .inr ⟨rfl, recovery, shard, reason, decoded, there⟩⟩

theorem Descends.trans {first second third : Service} (earlier : Descends first second)
    (later : Descends second third) : Descends first third := by
  intro recovery registered found
  obtain ⟨between, there, shard, place⟩ := later recovery registered found
  obtain ⟨before, was, shardToo, placeToo⟩ := earlier recovery between there
  exact ⟨before, was, shardToo.trans shard, placeToo.trans place⟩

theorem Spares.descends {before after : Service} (spares : Spares before after) :
    Descends before after :=
  fun recovery registered found => ⟨registered, (spares recovery registered found).1, rfl, rfl⟩

theorem descends_worked {recovery : Int64} {registered : Registered} {after : Receiver}
    (there : service.targets[recovery]? = some registered)
    (moved : after.target.shard = registered.target.shard) :
    Descends service (service.worked recovery registered after) := by
  intro other found targets
  rw [targets_worked] at targets
  split at targets
  · next same =>
      cases targets
      exact ⟨registered, same ▸ there, moved.symm, rfl⟩
  · exact ⟨found, targets, rfl, rfl⟩

namespace Housed

theorem mono {wider : ShardId → String → Prop} (housed : service.Housed home)
    (widens : ∀ shard store, home shard store → wider shard store) : service.Housed wider where
  slots shard place found := widens _ _ (housed.slots shard place found)
  targets recovery registered found := widens _ _ (housed.targets recovery registered found)
  own := housed.own

theorem descends {after : Service} (housed : service.Housed home)
    (shrinks : Shrinks service after) (descends : Descends service after) :
    after.Housed home where
  slots shard place found := housed.slots shard place (shrinks.slots shard ▸ found)
  targets recovery registered found := by
    obtain ⟨earlier, there, shard, place⟩ := descends recovery registered found
    exact shard ▸ place ▸ housed.targets recovery earlier there
  own shard place recovery registered slot found same := by
    obtain ⟨earlier, there, sameShard, samePlace⟩ := descends recovery registered found
    rw [shrinks.slots] at slot
    rw [← samePlace] at same
    exact sameShard.symm.trans (housed.own shard place recovery earlier slot there same)

theorem handle (housed : service.Housed home) (placed : service.Placed) (request : Request) :
    (service.handle request).2.Housed home := by
  rcases handle_cases service request with same | ⟨registered, after, there, moved, outcome⟩
  · rwa [same]
  · have worked := shrinks_worked placed there after
    have descends := descends_worked there moved
    rcases outcome with ⟨_, same⟩ | same
    · rw [same]
      exact housed.descends worked descends
    · rw [same]
      exact housed.descends (worked.trans (shrinks_retire _ _))
        (descends.trans (spares_retire _ _).descends)

/-- A shard that is registered gets an engine that no recovery works on. -/
theorem register {shard : ShardId} {store : String} (housed : service.Housed home)
    (placed : service.Placed) (engine : Engine) (housing : home shard store) :
    (service.register shard store engine).Housed home := by
  have slot (other : ShardId) (place : Place)
      (found : (service.register shard store engine).slotPlace other = some place) :
      (shard = other ∧ place = ⟨store, service.engines.size⟩) ∨
        service.slotPlace other = some place := by
    rw [slotPlace_register] at found
    split at found
    · next same =>
        cases found
        exact .inl ⟨same, rfl⟩
    · exact .inr found
  constructor
  case slots =>
    intro other place found
    rcases slot other place found with ⟨rfl, rfl⟩ | before
    · exact housing
    · exact housed.slots other place before
  case targets => exact housed.targets
  case own =>
    intro other place recovery registered found there same
    rcases slot other place found with ⟨_, rfl⟩ | before
    · have known := placed.keys _ (placed.target_mem recovery _ (placeOf_eq_some there))
      exact absurd same known.ne
    · exact housed.own other place recovery registered before there same

theorem opened {shard : ShardId} {place : Place} (housed : service.Housed home)
    (placed : service.Placed) (slot : service.slotPlace shard = some place) (recovery : Int64) :
    (service.opened shard recovery { target := { recovery, shard }, place }).Housed home := by
  have slots (other : ShardId) :
      (service.opened shard recovery { target := { recovery, shard }, place }).slotPlace other =
        service.slotPlace other := by
    apply slotPlace_modifySlot
    exact fun _ => rfl
  constructor
  case slots => exact fun other place found => housed.slots other place (slots other ▸ found)
  case targets =>
    intro other registered found
    rw [targets_opened] at found
    split at found
    · cases found
      exact housed.slots shard place slot
    · exact housed.targets other registered found
  case own =>
    intro other there number registered found known same
    rw [slots] at found
    rw [targets_opened] at known
    split at known
    · cases known
      exact placed.apart shard other place there slot found same
    · exact housed.own other there number registered found known same

theorem answered {call : Call} (housed : service.Housed home) (placed : service.Placed)
    (homes : ∀ shard store, Houses call shard store → home shard store) :
    (service.answered call).Housed home := by
  cases call with
  | frame input =>
      rcases handleBytes_cases service input with same | ⟨request, same⟩
      · rwa [Service.answered, same]
      · rw [Service.answered, same]
        exact housed.handle placed request
  | event event =>
      cases event with
      | register shard store engine =>
          exact housed.register placed engine (homes shard store ⟨engine, rfl⟩)
      | modify store change =>
          exact housed.descends (.of_same rfl rfl rfl) (Spares.refl service).descends
      | elsewhere =>
          exact housed.descends (.of_same rfl rfl rfl) (Spares.refl service).descends
      | remove recovery =>
          exact housed.descends (shrinks_remove service recovery)
            (spares_remove service recovery).descends
      | handle request => exact housed.handle placed request
      | start shard source =>
          have shrinks := shrinks_superseded placed shard
          have between := housed.descends shrinks (spares_superseded placed shard).descends
          simp only [Service.answered, after]
          cases started : service.startRecovery shard source with
          | mk outcome later =>
              cases outcome with
              | error error =>
                  rcases startRecovery_error started with rfl | rfl
                  · exact housed
                  · exact between
              | ok start =>
                  obtain ⟨place, slot, _, _, _, _, rfl⟩ := startRecovery_ok started
                  exact between.opened (placed.shrinks shrinks)
                    ((shrinks.slots shard).trans slot) start.recovery

end Housed

theorem housed_serving (node : NodeId) (calls : List Call) :
    (serving node calls).Housed fun shard store => ∃ call ∈ calls, Houses call shard store := by
  induction calls using List.reverseRecOn with
  | nil => constructor <;> simp [serving, slotPlace]
  | append_singleton calls call ih =>
      rw [serving_concat]
      refine Housed.answered (ih.mono ?earlier) (placed_serving node calls) ?now
      case earlier =>
        rintro shard store ⟨other, member, houses⟩
        exact ⟨other, List.mem_append_left _ member, houses⟩
      case now =>
        intro shard store houses
        exact ⟨call, List.mem_append_right _ (List.mem_singleton_self call), houses⟩

theorem copyAt_keep_of_apart {place other : Place} (store : place.store ≠ other.store)
    (engine : place.engine ≠ other.engine) (service : Service) (receiver : Receiver) :
    (service.keep place receiver).copyAt other = service.copyAt other := by
  simp [copyAt, keep, Std.ExtTreeMap.getD_insert, store, engine]

theorem SameShard.trans {first second third : Service} {shard : ShardId}
    (earlier : SameShard first second shard) (later : SameShard second third shard) :
    SameShard first third shard where
  slot := later.slot.trans earlier.slot
  copy place slot := by
    have between : second.slotPlace shard = some place := by
      rwa [slotPlace, earlier.slot]
    exact (later.copy place between).trans (earlier.copy place slot)
  targets recovery registered own :=
    (later.targets recovery registered own).trans (earlier.targets recovery registered own)
  copies recovery registered there own := by
    have between := (earlier.targets recovery registered own).mpr there
    exact (later.copies recovery registered between own).trans
      (earlier.copies recovery registered there own)

/-- What a recovery does to its copy is seen by no other shard. -/
theorem sameShard_worked (placed : service.Placed) (housed : service.Housed home)
    (apart : ∀ shard other store, home shard store → home other store → shard = other)
    {recovery : Int64} {registered : Registered} {after : Receiver}
    (there : service.targets[recovery]? = some registered)
    (moved : after.target.shard = registered.target.shard) {shard : ShardId}
    (other : shard ≠ registered.target.shard) :
    service.SameShard (service.worked recovery registered after) shard := by
  have copy {place : Place} (housing : home shard place.store)
      (engine : registered.place.engine ≠ place.engine) :
      (service.worked recovery registered after).copyAt place = service.copyAt place := by
    refine copyAt_keep_of_apart (fun store => other ?_) engine service after
    have own := housed.targets recovery registered there
    exact apart _ _ place.store housing (store ▸ own)
  constructor
  case slot => rfl
  case copy =>
    intro place slot
    refine copy (housed.slots shard place slot) fun engine => other ?_
    exact (housed.own shard place recovery registered slot there engine).symm
  case targets =>
    intro spared found own
    rw [targets_worked]
    split
    · next same =>
        rw [← same, there]
        constructor <;> rintro ⟨⟩
        · exact absurd (own.symm.trans moved) other
        · exact absurd own.symm other
    · rfl
  case copies =>
    intro spared found kept own
    refine copy (own ▸ housed.targets spared found kept) fun engine => other ?_
    have same := placed.unique _ _ _ _ (placeOf_eq_some there) (placeOf_eq_some kept) engine
    rw [← same, there] at kept
    cases kept
    exact own.symm

theorem sameShard_retire {recovery : Int64} {registered : Registered}
    (there : service.targets[recovery]? = some registered) {shard : ShardId}
    (other : shard ≠ registered.target.shard) :
    service.SameShard (service.retire recovery) shard := by
  constructor
  case slot =>
    rw [retire, there]
    exact (slots_modifySlot ..).trans (if_neg other.symm)
  case copy => exact fun place _ => congrFun (copyAt_retire service recovery) place
  case targets =>
    intro spared found own
    constructor
    · exact fun kept => (spares_retire service recovery spared found kept).1
    · intro kept
      have differ : recovery ≠ spared := by
        rintro rfl
        rw [there] at kept
        cases kept
        exact other own.symm
      rw [targets_retire, if_neg differ]
      exact kept
  case copies => exact fun _ found _ _ => congrFun (copyAt_retire service recovery) found.place

/-- A request leaves the other shards alone. -/
theorem sameShard_handle (placed : service.Placed) (housed : service.Housed home)
    (apart : ∀ shard other store, home shard store → home other store → shard = other)
    (accepts : service.Accepts request) {shard : ShardId} (other : shard ≠ request.shard) :
    service.SameShard (service.handle request).2 shard := by
  obtain ⟨registered, there, own⟩ := accepts
  have moved := (Receiver.answer_handle (service.receiver registered) request).shard
  have worked := sameShard_worked placed housed apart there moved (own ▸ other)
  rw [handle_of_registered there own]
  dsimp only
  split
  · refine worked.trans (sameShard_retire ((targets_worked ..).trans (if_pos rfl)) ?_)
    exact fun same => other (same.trans (moved.trans own))
  · exact worked

/-- A recovery of the shard is started, and another one loses its target by that. -/
structure Replaces (service : Service) (shard : ShardId) (source : NodeId) (previous : Int64)
    (start : StartRequest) : Prop where
  started : (service.startRecovery shard source).1 = .ok start
  there : service.targets[previous]? ≠ none
  gone : (service.startRecovery shard source).2.targets[previous]? = none

/-- What has been replaced never comes back. -/
theorem Replaces.lasting {node : NodeId} {earlier later : List Call} {shard : ShardId}
    {source : NodeId} {previous : Int64} {start : StartRequest}
    (replaces : (serving node earlier).Replaces shard source previous start) :
    let service := serving node (earlier ++ [.event (.start shard source)] ++ later)
    (service.issued < 2 ^ 63 → previous < start.recovery) ∧
      (service.issued < 2 ^ 64 → service.targets[previous]? = none) := by
  obtain ⟨started, there, gone⟩ := replaces
  have issued := hasIssued_serving node earlier there
  constructor
  · intro lasting
    have out : (serving node earlier).handsOut (.event (.start shard source)) =
        some start.recovery := by
      rw [handsOut, started]
      rfl
    obtain ⟨next, following⟩ := handsOut_cases out
    obtain ⟨number, _, below, same⟩ := issued
    have grows := issued_le_serving node (earlier ++ [.event (.start shard source)]) later
    rw [serving_concat, following] at grows
    rw [same, next, Int64.ofNat_lt_iff_lt (by omega) (by omega)]
    omega
  · intro lasting
    have spent : (serving node (earlier ++ [.event (.start shard source)])).IsSpent previous := by
      rw [serving_concat]
      exact ⟨issued.answered _, gone⟩
    exact (spent.serving later lasting).gone

/-- Requests are inert unless they find a target, and then they are confined to the shard
of that. The numbers of recoveries ascend as long as they can, and a recovery that another
one replaces is never found again as long as the numbers last. -/
theorem isolated (node : NodeId) (calls : List Call) :
    let service := serving node calls
    (∀ input, (∀ request, Request.decode input = .ok request → ¬ service.Accepts request) →
      (service.handleBytes input).2 = service ∧ service.Refuses input) ∧
    (Apart calls → ∀ input request, Request.decode input = .ok request →
      service.Accepts request → ∀ shard ≠ request.shard,
        service.SameShard (service.handleBytes input).2 shard) ∧
    (service.issued < 2 ^ 63 → (handedOut { node } calls).Pairwise (· < ·)) ∧
    ∀ earlier later shard source previous start,
      calls = earlier ++ [.event (.start shard source)] ++ later →
      (serving node earlier).Replaces shard source previous start →
        (service.issued < 2 ^ 63 → previous < start.recovery) ∧
        (service.issued < 2 ^ 64 → ∀ request, request.recovery = previous →
          ¬ service.Accepts request) := by
  refine ⟨fun input => refuses_of_stray, ?confined, pairwise_handedOut _ calls, ?replaced⟩
  case confined =>
    intro apart input request decoded accepts shard other
    rw [handleBytes_of_decode decoded]
    refine sameShard_handle (placed_serving node calls) (housed_serving node calls) ?_ accepts other
    rintro shard other store ⟨first, member, houses⟩ ⟨second, memberToo, housesToo⟩
    exact apart first member second memberToo shard other store houses housesToo
  case replaced =>
    rintro earlier later shard source previous start rfl replaces
    obtain ⟨ascends, gone⟩ := @Replaces.lasting node earlier later _ _ _ _ replaces
    refine ⟨ascends, ?_⟩
    rintro lasting request rfl ⟨registered, found, _⟩
    rw [gone lasting] at found
    cases found

def neighbour : ShardId := { (default : ShardId) with number := 1 }

open Watched (receivingNode)

/-- Recoveries of two shards have been started. -/
def besideEachOther : List Call := [
  .event (.register default "a" {}),
  .event (.register neighbour "b" {}),
  .event (.start default receivingNode),
  .event (.start neighbour receivingNode)]

/-- The service gets a request that is cut off, and one that gives up the recovery of the
second shard; and one that would finish the recovery of the first, when another one has
replaced that. -/
theorem isolated_besideEachOther :
    ((serving receivingNode besideEachOther).handleBytes [0]).2 =
        serving receivingNode besideEachOther ∧
      (serving receivingNode besideEachOther).SameShard
        ((serving receivingNode besideEachOther).handleBytes
          (Request.cancel 2 neighbour "enough").write).2 default ∧
      (handedOut { node := receivingNode } besideEachOther).Pairwise (· < ·) ∧
      ¬ (serving receivingNode (besideEachOther ++ [.event (.start default receivingNode)])).Accepts
        (.step 1 1 default (.finalize 0)) := by
  obtain ⟨inert, confined, ascends, _⟩ := isolated receivingNode besideEachOther
  obtain ⟨_, _, _, replaced⟩ := isolated receivingNode
    (besideEachOther ++ [.event (.start default receivingNode)])
  have torn : (Request.decode [0]).toOption = none := by decide +kernel
  have decoded : Request.decode (Request.cancel 2 neighbour "enough").write =
      .ok (.cancel 2 neighbour "enough") := by
    decide +kernel
  have active : (serving receivingNode besideEachOther).IsActive neighbour 2 := by
    decide +kernel
  have apart : Apart besideEachOther := by
    rintro first member second memberToo shard other store ⟨_, rfl⟩ ⟨_, rfl⟩
    simp only [besideEachOther, List.mem_cons, List.not_mem_nil, Call.event.injEq,
      Event.register.injEq, reduceCtorEq, or_false] at member memberToo
    grind
  refine ⟨?inert, ?confined, ?ascends, ?replaced⟩
  case inert =>
    refine (inert [0] fun request read => ?_).1
    rw [read] at torn
    cases torn
  case confined =>
    obtain ⟨registered, there, own, _⟩ := active
    exact confined apart _ _ decoded ⟨registered, there, own⟩ default (by decide)
  case ascends => exact ascends (by decide +kernel)
  case replaced =>
    cases started : ((serving receivingNode besideEachOther).startRecovery default
        receivingNode).1 with
    | error error =>
        have succeeds : ((serving receivingNode besideEachOther).startRecovery default
            receivingNode).1.toOption.isSome = true := by
          decide +kernel
        rw [started] at succeeds
        cases succeeds
    | ok start =>
        have there : ((serving receivingNode besideEachOther).targets[(1 : Int64)]?).isSome =
            true := by
          decide +kernel
        have gone : ((serving receivingNode besideEachOther).startRecovery default
            receivingNode).2.targets[(1 : Int64)]?.isNone = true := by
          decide +kernel
        have replaces : (serving receivingNode besideEachOther).Replaces default receivingNode 1
            start :=
          ⟨started, Option.isSome_iff_ne_none.mp there, Option.isNone_iff_eq_none.mp gone⟩
        refine (replaced besideEachOther [] default receivingNode 1 start ?_ replaces).2 ?_ _ rfl
        · rw [List.append_nil]
        · decide +kernel

end ShardSync.Recovery.Service
