import ShardSync.Proofs.Recovery.Coherence
import ShardSync.Proofs.Recovery.Leftovers

/-!
# What becomes of a target

Whatever callers do to a service, a target goes on by answering requests or stays as it
is, and finds its temporary files as it has left them.
-/

set_option autoImplicit false

namespace ShardSync.Recovery.Shared

variable {named : Prop} {before between after shared : Shared} {shard : ShardId}
  {recovery : Int64} {registered : Registered}

/-- What a move does to the targets and the files. -/
inductive Alters (before after : Shared) : Prop where
  | still (targets : after.target? = before.target?)
      (stores : after.service.storeAt = before.service.storeAt)
  | answered {recovery : Int64} {registered : Registered} {request : Request} {reply : Reply}
      {receiver : Receiver} (there : before.target? recovery = some registered)
      (answer : (before.service.receiver registered).Answer request reply receiver)
      (targets : after.target? = Function.update before.target? recovery
        (some { registered with target := receiver.target }))
      (stores : ∀ name, after.service.storeAt name =
        if name = registered.place.store then receiver.copy.store
        else before.service.storeAt name)
  | begun {recovery : Int64} {shard : ShardId} {place : Place}
      (fresh : before.target? recovery = none)
      (targets : after.target? = Function.update before.target? recovery
        (some { target := { recovery, shard }, place }))
      (stores : after.service.storeAt = before.service.storeAt)

theorem alters_worked {request : Request} {reply : Reply} {receiver : Receiver}
    (there : shared.target? recovery = some registered)
    (answer : (shared.service.receiver registered).Answer request reply receiver) :
    Alters shared (shared.worked recovery registered receiver) := by
  refine .answered there answer (target?_worked ..) fun name => ?_
  cases current : shared.service.targets[recovery]? with
  | none =>
      rw [worked_of_unregistered current]
      exact Service.storeAt_keep ..
  | some =>
      rw [worked_of_registered current]
      exact Service.storeAt_keep ..

theorem alters_makeWay (shared : Shared) (shard : ShardId) :
    Alters shared (shared.makeWay shard) := by
  cases displaced : shared.service.displacedBy shard with
  | none =>
      refine .still (target?_makeWay_of_none displaced) ?_
      rw [makeWay_of_none displaced]
      exact (Service.superseded_of_none displaced).2
  | some entry =>
      obtain ⟨previous, left⟩ := entry
      have targets := target?_makeWay_of_some displaced
      obtain ⟨active, registered, there, rfl⟩ := Service.displacedBy_eq_some.mp displaced
      have stores := (Service.superseded_of_some active there).2
      obtain ⟨reason, journal, left⟩ := Service.displaced_eq_cancel shared.service shard previous
        (.ofNat (shared.service.issued + 1)) registered
      have cancelled : (shared.service.receiver registered).Answer
          (.cancel previous shard reason) .ack
            ((shared.service.receiver registered).cancel reason) :=
        .cancelled
      rw [left] at targets stores
      refine .answered (target?_of_registered there) cancelled targets ?_
      rw [makeWay_of_some displaced]
      exact stores

/-- A move alters the targets twice at most. -/
theorem alters_next (coherent : shared.Coherent) {move : Move}
    (lasting : (shared.next move).service.issued < 2 ^ 64) :
    ∃ between, Alters shared between ∧ Alters between (shared.next move) := by
  have still : Alters shared shared := .still rfl rfl
  have takes := takes_next shared move
  generalize shared.next move = after at takes lasting
  cases takes with
  | none => exact ⟨shared, still, still⟩
  | registers => exact ⟨shared, still, .still rfl rfl⟩
  | turns => exact ⟨shared, still, .still rfl rfl⟩
  | skips => exact ⟨shared, still, .still rfl rfl⟩
  | works _ there answer => exact ⟨_, alters_worked there answer, .still rfl rfl⟩
  | @retires caller recovery =>
      refine ⟨shared, still, .still (target?_retired shared recovery) (funext fun name => ?_)⟩
      exact congrArg ShardCopy.store (congrFun (Service.copyAt_retire shared.service recovery) ⟨name, 0⟩)
  | starts shard source =>
      rcases start_cases shared shard source with same | same | ⟨start, place, _, _, number, same⟩
      · rw [same]
        exact ⟨shared, still, still⟩
      · rw [same]
        exact ⟨_, alters_makeWay shared shard, .still rfl rfl⟩
      · rw [same] at lasting ⊢
        have issued := Service.issued_superseded shared.service shard
        refine ⟨_, alters_makeWay shared shard, .begun ?_ (target?_opened ..) rfl⟩
        exact number ▸ coherent.fresh_start (issued ▸ lasting) shard

/-- All targets have been tidy since they were begun. -/
structure Tended (named : Prop) (shared : Shared) : Prop where
  wellNamed : named → ∀ name, (shared.service.storeAt name).WellNamed
  tidy : ∀ (recovery : Int64) (registered : Registered),
    shared.target? recovery = some registered →
      ∃ origin, (shared.service.receiver registered).Tidy named recovery origin

/-- What has become of a target. -/
structure Follows (named : Prop) (before after : Shared) (recovery : Int64)
    (registered later : Registered) : Prop where
  there : after.target? recovery = some later
  shard : later.target.shard = registered.target.shard
  place : later.place = registered.place
  rests : registered.isOver = true → later = registered
  tidy : ∀ origin, (before.service.receiver registered).Tidy named recovery origin →
    (after.service.receiver later).Tidy named recovery origin

theorem Follows.trans {later last : Registered}
    (first : Follows named before between recovery registered later)
    (second : Follows named between after recovery later last) :
    Follows named before after recovery registered last where
  there := second.there
  shard := second.shard.trans first.shard
  place := second.place.trans first.place
  rests ended := by
    obtain rfl := first.rests ended
    exact second.rests ended
  tidy origin tidy := second.tidy origin (first.tidy origin tidy)

theorem not_touches_tempName {other : Int64} (differ : recovery ≠ other) (name : String) :
    ¬ Receiver.Touches other (Store.tempName recovery name) := by
  rintro (own | live)
  · exact differ (Store.isTempOf_unique (Store.isTempOf_tempName recovery name) own)
  · rw [Store.isTemp_tempName] at live
    cases live

namespace Alters

theorem follows (alters : Alters before after) (tended : before.Tended named)
    (there : before.target? recovery = some registered) :
    ∃ later, Follows named before after recovery registered later := by
  -- A target that does not move itself finds its temporary files as it has left them.
  have elsewhere {recovery : Int64} {registered : Registered}
      (targets : after.target? recovery = some registered)
      (files : ∀ name, (after.service.storeAt registered.place.store).files[
          Store.tempName recovery name]? =
        (before.service.storeAt registered.place.store).files[Store.tempName recovery name]?) :
      Follows named before after recovery registered registered :=
    ⟨targets, rfl, rfl, fun _ => rfl, fun _ tidy => tidy.elsewhere rfl files⟩
  cases alters with
  | still targets stores =>
      refine ⟨registered, elsewhere (targets ▸ there) fun name => ?_⟩
      rw [stores]
  | begun fresh targets stores =>
      refine ⟨registered, elsewhere ?_ fun name => by rw [stores]⟩
      rw [targets, Function.update_apply, if_neg]
      · exact there
      · rintro rfl
        rw [fresh] at there
        cases there
  | @answered worker working request reply receiver busy answer targets stores =>
      by_cases own : recovery = worker
      · subst own
        obtain rfl : working = registered := Option.some.inj (busy.symm.trans there)
        refine ⟨{ working with target := receiver.target }, ?there, answer.shard, rfl, ?rests, ?tidy⟩
        case there => rw [targets, Function.update_self]
        case rests =>
          intro ended
          rw [answer.rests ended]
          rfl
        case tidy =>
          intro origin tidy
          have answered := tidy.answer (fun proper => tended.wellNamed proper _) answer
          refine answered.elsewhere rfl fun name => ?_
          change (after.service.storeAt working.place.store).files[_]? = _
          rw [stores, if_pos rfl]
      · refine ⟨registered, elsewhere ?_ fun name => ?_⟩
        · rw [targets, Function.update_of_ne own]
          exact there
        · rw [stores]
          split
          · next same =>
              obtain ⟨origin, tidy⟩ := tended.tidy worker working busy
              have changes := answer.changes tidy.numbered tidy.sound
              rw [changes.elsewhere _ (not_touches_tempName own name), same]
              rfl
          · rfl

theorem tended (alters : Alters before after) (tended : before.Tended named) :
    after.Tended named := by
  constructor
  case wellNamed =>
    intro proper name
    have earlier := tended.wellNamed proper
    cases alters with
    | still _ stores => exact stores ▸ earlier name
    | begun _ _ stores => exact stores ▸ earlier name
    | @answered worker working _ _ _ there answer _ stores =>
        rw [stores]
        split
        · obtain ⟨origin, tidy⟩ := tended.tidy worker working there
          exact (earlier working.place.store).changes (answer.changes tidy.numbered tidy.sound)
        · exact earlier name
  case tidy =>
    intro recovery registered there
    cases was : before.target? recovery with
    | some earlier =>
        obtain ⟨origin, tidy⟩ := tended.tidy recovery earlier was
        obtain ⟨later, follows⟩ := alters.follows tended was
        obtain rfl : later = registered := Option.some.inj (follows.there.symm.trans there)
        exact ⟨origin, follows.tidy origin tidy⟩
    | none =>
        cases alters with
        | still targets => cases was.symm.trans (targets ▸ there)
        | answered busy _ targets =>
            rw [targets, Function.update_apply] at there
            split at there
            · next same =>
                rw [same, busy] at was
                cases was
            · cases was.symm.trans there
        | begun _ targets =>
            rw [targets, Function.update_apply] at there
            split at there
            · next same =>
                cases there
                subst same
                exact ⟨_, Receiver.Tidy.begun ..⟩
            · cases was.symm.trans there

end Alters

theorem follows_next (coherent : shared.Coherent) (tended : shared.Tended named) {move : Move}
    (lasting : (shared.next move).service.issued < 2 ^ 64) :
    (shared.next move).Tended named ∧
      ∀ (recovery : Int64) (registered : Registered), shared.target? recovery = some registered →
        ∃ later, Follows named shared (shared.next move) recovery registered later := by
  obtain ⟨between, first, second⟩ := alters_next coherent lasting
  have tendedToo := first.tended tended
  refine ⟨second.tended tendedToo, fun recovery registered there => ?_⟩
  obtain ⟨later, follows⟩ := first.follows tended there
  obtain ⟨last, followsToo⟩ := second.follows tendedToo follows.there
  exact ⟨last, follows.trans followsToo⟩

/-- The files that the stores hold at the beginning have proper names. -/
def ProperlyNamed (stores : Std.ExtTreeMap String Store) : Prop :=
  ∀ name, (stores.getD name {}).WellNamed

theorem tended_run (node : NodeId) (stores : Std.ExtTreeMap String Store) (moves : List Move)
    (lasting : (run node stores moves).service.issued < 2 ^ 64) :
    (run node stores moves).Tended (ProperlyNamed stores) := by
  induction moves using List.reverseRecOn with
  | nil => exact ⟨id, fun _ _ there => by cases there⟩
  | append_singleton moves move ih =>
      have earlier := (issued_le_run node stores moves [move]).trans_lt lasting
      rw [run_concat] at lasting ⊢
      exact (follows_next (coherent_run node stores moves earlier) (ih earlier) lasting).1

theorem follows_run {node : NodeId} {stores : Std.ExtTreeMap String Store} {moves : List Move}
    (there : (run node stores moves).target? recovery = some registered) (later : List Move)
    (lasting : (run node stores (moves ++ later)).service.issued < 2 ^ 64) :
    ∃ last, Follows (ProperlyNamed stores) (run node stores moves)
      (run node stores (moves ++ later)) recovery registered last := by
  induction later using List.reverseRecOn with
  | nil =>
      rw [List.append_nil]
      exact ⟨registered, there, rfl, rfl, fun _ => rfl, fun _ tidy => tidy⟩
  | append_singleton later move ih =>
      have earlier := (issued_le_run node stores (moves ++ later) [move]).trans_lt
        (List.append_assoc .. ▸ lasting)
      obtain ⟨between, follows⟩ := ih earlier
      rw [← List.append_assoc, run_concat] at lasting ⊢
      have coherent := coherent_run node stores (moves ++ later) earlier
      obtain ⟨_, next⟩ := follows_next coherent (tended_run node stores _ earlier) lasting
      obtain ⟨last, followsToo⟩ := next recovery between follows.there
      exact ⟨last, follows.trans followsToo⟩

end ShardSync.Recovery.Shared
