import Mathlib.Data.List.TakeWhile
import ShardSync.Proofs.Recovery.Reached

/-!
# What finalizing a recovery installs

Finalizing a recovery is meant to install the announced files or to leave the
live files alone. The main statement says exactly when it does: when the files
are not ready to be promoted, when nothing is in the way of the promotion, or
when what was promoted before the obstacle cannot be told from what was there.
-/

set_option autoImplicit false

namespace ShardSync.Recovery

namespace Target

/-- After the recovery exactly the announced files are live. Those that were
received hold their staged and verified content, the others are untouched. -/
structure Installs (target : Target) (before after : Store) : Prop where
  received : ∀ (name : String) (incoming : Incoming), target.incoming[name]? = some incoming →
    ∃ content file, after.live name = some content ∧
      before.files[incoming.tempName]? = some content ∧ incoming.file? = some file ∧
      FileMetadata.ofContent name content = file
  existing : ∀ name ∈ target.existing,
    (before.live name).isSome = true ∧ after.live name = before.live name
  others : ∀ name, name ∉ target.announcedNames → after.live name = none

/-- What is checked before a file is renamed: all operations are replayed, and
all received files can be synced. -/
structure Ready (target : Target) (store : Store) : Prop where
  recovered : target.opsRecovered = target.totalOps
  stored : ∀ (name : String) (incoming : Incoming), target.incoming[name]? = some incoming →
    store.isStored incoming.tempName = true

/-- Nothing is in the way of the promotion: every received file can have its
live name, and every stale file can be removed. -/
structure Unobstructed (target : Target) (store : Store) : Prop where
  names : ∀ name ∈ target.incoming, Store.isValidName name = true
  stale : ∀ name ∈ store.stale target.announcedNames, store.isRemovable name = true

/-- No one else has touched the announced files: those received are still the
verified ones, and the others are still there. -/
structure Intact (target : Target) (store : Store) : Prop where
  received : ∀ (name : String) (incoming : Incoming), target.incoming[name]? = some incoming →
    ∃ content file, store.files[incoming.tempName]? = some content ∧
      incoming.file? = some file ∧ FileMetadata.ofContent name content = file
  existing : ∀ name ∈ target.existing, (store.live name).isSome = true

/-- A promotion that is obstructed changes nothing: the files that are renamed
before the obstacle hold what was live before, and no stale file is removed. -/
structure Unnoticed (target : Target) (store : Store) : Prop where
  received : ∀ file ∈ Store.promotable target.received,
    (store.files[file.2]?).map Content.toBytes = store.octets? file.1
  stale : store.discarded target.received target.announcedNames = []

theorem mem_received_iff {target : Target} {name stored : String} :
    (name, stored) ∈ target.received ↔
      ∃ incoming, target.incoming[name]? = some incoming ∧ incoming.tempName = stored := by
  simp only [received, List.mem_map, Prod.exists, Std.ExtTreeMap.mem_toList_iff_getElem?_eq_some,
    Prod.mk.injEq]
  constructor
  · intro given
    obtain ⟨_, incoming, found, rfl, rfl⟩ := given
    exact ⟨incoming, found, rfl⟩
  · intro given
    obtain ⟨incoming, found, rfl⟩ := given
    exact ⟨name, incoming, found, rfl, rfl⟩

theorem map_fst_received (target : Target) :
    target.received.map (·.1) = target.incoming.keys := by
  rw [received, List.map_map, ← Std.ExtTreeMap.map_fst_toList_eq_keys]
  rfl

theorem lookup_received (target : Target) (name : String) :
    target.received.lookup name = target.incoming[name]?.map (·.tempName) := by
  cases found : target.incoming[name]? with
  | none =>
      refine List.lookup_eq_none_iff.mpr fun file member => bne_iff_ne.mpr fun same => ?_
      obtain ⟨incoming, there, _⟩ := mem_received_iff.mp (show (file.1, file.2) ∈ _ from member)
      rw [← same, found] at there
      cases there
  | some incoming =>
      have member := mem_received_iff.mpr ⟨incoming, found, rfl⟩
      cases looked : target.received.lookup name with
      | none =>
          have differ := List.lookup_eq_none_iff.mp looked _ member
          exact absurd rfl (bne_iff_ne.mp differ)
      | some stored =>
          obtain ⟨other, there, same⟩ := mem_received_iff.mp (Store.lookup_mem looked)
          rw [found] at there
          cases there
          exact congrArg some same.symm

theorem Sound.staging {target : Target} (sound : target.Sound) : Store.Staging target.received where
  names := by
    rw [map_fst_received]
    exact Std.ExtTreeMap.nodup_keys
  stored := by
    have temporary : target.received.map (·.2) =
        (target.received.map (·.1)).map (Store.tempName target.recovery) := by
      rw [List.map_map]
      refine List.map_congr_left fun file member => ?_
      obtain ⟨incoming, found, same⟩ := mem_received_iff.mp (show (file.1, file.2) ∈ _ from member)
      rw [← same]
      exact sound.stored file.1 incoming found
    rw [temporary, map_fst_received]
    refine List.Pairwise.map _ (fun first second differ same => ?_) Std.ExtTreeMap.nodup_keys
    exact differ (Store.tempName_injective same)
  permanent file member := by
    refine sound.permanent file.1 (mem_announcedNames_iff.mpr (.inl ?_))
    rw [← Std.ExtTreeMap.mem_keys, ← map_fst_received]
    exact List.mem_map_of_mem member
  temporary file member := by
    obtain ⟨incoming, found, same⟩ := mem_received_iff.mp (show (file.1, file.2) ∈ _ from member)
    rw [← same, sound.stored file.1 incoming found]
    exact Store.isTemp_tempName _ _

theorem fst_mem_announcedNames {target : Target} {file : String × String}
    (member : file ∈ target.received) : file.1 ∈ target.announcedNames := by
  rw [mem_announcedNames_iff, ← Std.ExtTreeMap.mem_keys, ← map_fst_received]
  exact .inl (List.mem_map_of_mem member)

theorem forall_isStored_iff {target : Target} {store : Store} :
    (∀ file ∈ target.received, store.isStored file.2 = true) ↔
      ∀ (name : String) (incoming : Incoming), target.incoming[name]? = some incoming →
        store.isStored incoming.tempName = true := by
  constructor
  · intro all name incoming found
    exact all (name, incoming.tempName) (mem_received_iff.mpr ⟨incoming, found, rfl⟩)
  · intro all file member
    obtain ⟨incoming, found, same⟩ := mem_received_iff.mp (show (file.1, file.2) ∈ _ from member)
    rw [← same]
    exact all file.1 incoming found

theorem forall_isValidName_iff {target : Target} :
    (∀ file ∈ target.received, Store.isValidName file.1 = true) ↔
      ∀ name ∈ target.incoming, Store.isValidName name = true := by
  simp only [← Std.ExtTreeMap.mem_keys, ← map_fst_received, List.mem_map, forall_exists_index,
    and_imp, forall_apply_eq_imp_iff₂]

end Target

namespace Receiver

theorem live_fail (receiver : Receiver) (error : Error) (name : String) :
    (receiver.fail error).copy.store.live name = receiver.copy.store.live name := by
  rw [fail, store_abort, Store.live_removeTemps]

/-- A recovery whose files are not ready fails, and leaves the live files alone. -/
theorem finalize_of_not_ready {receiver : Receiver} (inOps : receiver.phase = .ops)
    (unready : ¬ receiver.target.Ready receiver.copy.store)
    (number recovery : Int64) (shard : ShardId) (globalCheckpoint : Int64) :
    ∃ error after,
      receiver.handle (.step number recovery shard (.finalize globalCheckpoint)) =
        (.ofError error, after) ∧
      after.phase = .failed ∧
      ∀ name, after.copy.store.live name = receiver.copy.store.live name := by
  have going := going_of_ops inOps
  by_cases recovered : receiver.target.opsRecovered = receiver.target.totalOps
  · obtain ⟨journal, _, outcome⟩ :=
      Receiving.start_finalize inOps recovered globalCheckpoint
    have lacking : ¬ ∀ file ∈ receiver.target.received,
        receiver.copy.store.isStored file.2 = true := fun stored =>
      unready ⟨recovered, Target.forall_isStored_iff.mp stored⟩
    obtain ⟨error, failed⟩ := Store.promote_of_not_stored lacking
    rw [failed] at outcome
    have outcome : (Command.finalize globalCheckpoint).perform.start receiver = _ := outcome
    exact ⟨_, _, handle_of_error going outcome .., phase_fail going outcome _, live_fail _ _⟩
  · obtain ⟨error, refused⟩ :=
      Receiving.finalize_refused (fun ready => recovered ready.2) globalCheckpoint
    have refused : (Command.finalize globalCheckpoint).perform.start receiver = _ := refused
    exact ⟨_, _, handle_of_error going refused .., phase_fail going refused _, live_fail _ _⟩

/-- A recovery whose files are ready promotes them, and is done if it gets to
the end. -/
theorem finalize_of_ready {receiver : Receiver} (sound : receiver.target.Sound)
    (inOps : receiver.phase = .ops) (ready : receiver.target.Ready receiver.copy.store)
    (number recovery : Int64) (shard : ShardId) (globalCheckpoint : Int64) :
    ∃ reply after,
      receiver.handle (.step number recovery shard (.finalize globalCheckpoint)) =
        (reply, after) ∧
      (receiver.target.Unobstructed receiver.copy.store → after.phase = .done) ∧
      (¬ receiver.target.Unobstructed receiver.copy.store → after.phase = .failed) ∧
      ∀ name, after.copy.store.live name =
        if name ∈ receiver.copy.store.discarded receiver.target.received
            receiver.target.announcedNames then none
        else
          match (Store.promotable receiver.target.received).lookup name with
          | some stored => receiver.copy.store.files[stored]?
          | none => receiver.copy.store.live name := by
  have going := going_of_ops inOps
  obtain ⟨journal, _, outcome⟩ :=
    Receiving.start_finalize inOps ready.recovered globalCheckpoint
  have outcome : (Command.finalize globalCheckpoint).perform.start receiver = _ := outcome
  obtain ⟨succeeds, live⟩ := Store.promote_staged sound.staging
    (Target.forall_isStored_iff.mpr ready.stored)
    fun file member => Target.fst_mem_announcedNames member
  have unobstructed : (∃ removed, (receiver.copy.store.promote receiver.target.received
      receiver.target.announcedNames).1 = .ok removed) ↔
        receiver.target.Unobstructed receiver.copy.store := by
    rw [succeeds, Target.forall_isValidName_iff]
    exact ⟨fun possible => ⟨possible.1, possible.2⟩, fun possible => ⟨possible.1, possible.2⟩⟩
  cases promoted : receiver.copy.store.promote receiver.target.received
      receiver.target.announcedNames with
  | mk result store =>
      rw [promoted] at outcome unobstructed live
      cases result with
      | ok removed =>
          have possible := unobstructed.mp ⟨removed, rfl⟩
          exact ⟨_, _, handle_of_ok going outcome .., fun _ => rfl,
            fun obstructed => absurd possible obstructed, live⟩
      | error error =>
          have obstructed : ¬ receiver.target.Unobstructed receiver.copy.store :=
            fun possible => by
              obtain ⟨removed, ended⟩ := unobstructed.mpr possible
              cases ended
          refine ⟨_, _, handle_of_error going outcome .., fun possible =>
            absurd possible obstructed, fun _ => phase_fail going outcome _, fun name => ?_⟩
          rw [live_fail]
          exact live name

/-- A request has either completed the recovery and installed its files, or
failed the recovery and left the names and the bytes of the live files alone. -/
def AllOrNothing (before after : Receiver) : Prop :=
  (after.phase = .done ∧ before.target.Installs before.copy.store after.copy.store) ∨
    (after.phase = .failed ∧
      ∀ name, after.copy.store.octets? name = before.copy.store.octets? name)

end Receiver

namespace Target

/-- What is live after the files of a target have been promoted as far as possible. -/
def liveAfter (target : Target) (store : Store) (name : String) : Option Content :=
  if name ∈ store.discarded target.received target.announcedNames then none
  else
    match (Store.promotable target.received).lookup name with
    | some stored => store.files[stored]?
    | none => store.live name

theorem not_mem_discarded {target : Target} {store : Store} {name : String}
    (announced : name ∈ target.announcedNames) :
    name ∉ store.discarded target.received target.announcedNames := by
  intro discarded
  unfold Store.discarded at discarded
  split at discarded
  · exact (Store.mem_stale_iff.mp ((List.takeWhile_prefix _).subset discarded)).2 announced
  · cases discarded

theorem liveAfter_of_received {target : Target} {store : Store} {name : String}
    {incoming : Incoming} (possible : target.Unobstructed store)
    (found : target.incoming[name]? = some incoming) :
    target.liveAfter store name = store.files[incoming.tempName]? := by
  have announced : name ∈ target.announcedNames := mem_announcedNames_iff.mpr <| .inl <|
    Std.ExtTreeMap.mem_iff_isSome_getElem?.mpr (by rw [found]; rfl)
  have all : Store.promotable target.received = target.received :=
    List.takeWhile_eq_self_iff.mpr (forall_isValidName_iff.mpr possible.names)
  rw [liveAfter, if_neg (not_mem_discarded announced), all, lookup_received, found]
  rfl

/-- A promotion that gets to the end changes no other live files than to remove the stale
ones. -/
theorem liveAfter_of_absent {target : Target} {store : Store} {name : String}
    (possible : target.Unobstructed store) (absent : name ∉ target.incoming) :
    target.liveAfter store name =
      if name ∈ store.stale target.announcedNames then none else store.live name := by
  have valid := forall_isValidName_iff.mpr possible.names
  have all : Store.promotable target.received = target.received :=
    List.takeWhile_eq_self_iff.mpr valid
  have discarded : store.discarded target.received target.announcedNames =
      store.stale target.announcedNames := by
    rw [Store.discarded, if_pos (List.all_eq_true.mpr valid)]
    exact List.takeWhile_eq_self_iff.mpr possible.stale
  have unlisted : target.received.lookup name = none := by
    rw [lookup_received, Std.ExtTreeMap.getElem?_eq_none absent]
    rfl
  rw [liveAfter, discarded, all, unlisted]

theorem liveAfter_of_existing {target : Target} (sound : target.Sound) {store : Store}
    {name : String} (possible : target.Unobstructed store) (member : name ∈ target.existing) :
    target.liveAfter store name = store.live name := by
  have announced := mem_announcedNames_iff.mpr (.inr member)
  rw [liveAfter_of_absent possible (sound.apart name member), if_neg]
  exact fun stale => (Store.mem_stale_iff.mp stale).2 announced

theorem liveAfter_of_unannounced {target : Target} {store : Store} {name : String}
    (possible : target.Unobstructed store) (unannounced : name ∉ target.announcedNames) :
    target.liveAfter store name = none := by
  have absent : name ∉ target.incoming :=
    fun member => unannounced (mem_announcedNames_iff.mpr (.inl member))
  rw [liveAfter_of_absent possible absent]
  split
  · rfl
  · next kept =>
      rw [Store.mem_stale_iff, not_and_or, not_not] at kept
      rcases kept with missing | announced
      · exact Option.not_isSome_iff_eq_none.mp missing
      · exact absurd announced unannounced

/-- A promotion that gets to the end installs the files that no one has touched. -/
theorem installs_iff_intact {target : Target} (sound : target.Sound) {before after : Store}
    (possible : target.Unobstructed before)
    (live : ∀ name, after.live name = target.liveAfter before name) :
    target.Installs before after ↔ target.Intact before := by
  constructor
  · intro installs
    refine ⟨fun name incoming found => ?_, fun name member => (installs.existing name member).1⟩
    obtain ⟨content, file, _, stored, described, same⟩ := installs.received name incoming found
    exact ⟨content, file, stored, described, same⟩
  · intro intact
    refine ⟨fun name incoming found => ?_, fun name member => ?_, fun name unannounced => ?_⟩
    · obtain ⟨content, file, stored, described, same⟩ := intact.received name incoming found
      have received := (live name).trans (liveAfter_of_received possible found)
      exact ⟨content, file, received.trans stored, stored, described, same⟩
    · have existing := (live name).trans (liveAfter_of_existing sound possible member)
      exact ⟨intact.existing name member, existing⟩
    · exact (live name).trans (liveAfter_of_unannounced possible unannounced)

/-- A promotion leaves the bytes of the live files alone exactly if it cannot
be noticed. -/
theorem octets_eq_iff_unnoticed {target : Target} (sound : target.Sound) {before after : Store}
    (live : ∀ name, after.live name = target.liveAfter before name) :
    (∀ name, after.octets? name = before.octets? name) ↔ target.Unnoticed before := by
  have promoted {file : String × String} (member : file ∈ Store.promotable target.received) :
      after.octets? file.1 = (before.files[file.2]?).map Content.toBytes := by
    have announced := fst_mem_announcedNames ((List.takeWhile_prefix _).subset member)
    have found : (Store.promotable target.received).lookup file.1 = some file.2 :=
      Store.lookup_of_mem ((List.takeWhile_prefix _).sublist.map _ |>.nodup sound.staging.names)
        member
    rw [Store.octets?, live, liveAfter, if_neg (not_mem_discarded announced), found]
  constructor
  · intro same
    refine ⟨fun file member => (promoted member).symm.trans (same file.1), ?_⟩
    refine List.eq_nil_iff_forall_not_mem.mpr fun name member => ?_
    have gone := same name
    rw [Store.octets?, live, liveAfter, if_pos member, Store.octets?, eq_comm, Option.map_none,
      Option.map_eq_none_iff] at gone
    unfold Store.discarded at member
    split at member
    · have stale := Store.mem_stale_iff.mp ((List.takeWhile_prefix _).subset member)
      rw [gone] at stale
      cases stale.1
    · cases member
  · intro unnoticed name
    cases looked : (Store.promotable target.received).lookup name with
    | some stored =>
        have member := Store.lookup_mem looked
        exact (promoted member).trans (unnoticed.received _ member)
    | none =>
        rw [Store.octets?, live, liveAfter, unnoticed.stale, if_neg List.not_mem_nil, looked]
        rfl

end Target

/-- Finalizing a recovery installs all of its files or changes no live file,
unless an inadmissible name or an undeletable stale file shows up when live
files have been changed already, or somebody else has changed the announced
files. -/
theorem Receiver.allOrNothing_finalize_iff {recovery : Int64} {shard : ShardId}
    {receiver : Receiver} (reached : Target.Reached recovery shard receiver.target)
    (inOps : receiver.phase = .ops) (number : Int64) (globalCheckpoint : Int64) :
    receiver.AllOrNothing
        (receiver.handle (.step number recovery shard (.finalize globalCheckpoint))).2 ↔
      ¬ receiver.target.Ready receiver.copy.store ∨
        receiver.target.Unobstructed receiver.copy.store ∧
          receiver.target.Intact receiver.copy.store ∨
        ¬ receiver.target.Unobstructed receiver.copy.store ∧
          receiver.target.Unnoticed receiver.copy.store := by
  have sound : receiver.target.Sound := reached.sound fun failed => by
    rw [show receiver.target.progress.phase = .ops from inOps] at failed
    cases failed
  by_cases ready : receiver.target.Ready receiver.copy.store
  · obtain ⟨reply, after, handled, completes, fails, live⟩ :=
      finalize_of_ready sound inOps ready number recovery shard globalCheckpoint
    rw [handled, AllOrNothing, or_iff_right (not_not_intro ready)]
    by_cases possible : receiver.target.Unobstructed receiver.copy.store
    · have done := completes possible
      rw [and_iff_right done, Target.installs_iff_intact sound possible live,
        and_iff_right possible, or_iff_left, or_iff_left]
      · exact fun obstructed => obstructed.1 possible
      · intro failed
        rw [done] at failed
        cases failed.1
    · have failed := fails possible
      rw [and_iff_right failed, Target.octets_eq_iff_unnoticed sound live,
        and_iff_right possible, or_iff_right, or_iff_right]
      · exact fun unobstructed => possible unobstructed.1
      · intro done
        rw [failed] at done
        cases done.1
  · obtain ⟨error, after, handled, failed, live⟩ :=
      finalize_of_not_ready inOps ready number recovery shard globalCheckpoint
    refine iff_of_true (.inr ⟨?_, fun name => ?_⟩) (.inl ready)
    · rw [handled]
      exact failed
    · rw [handled, Store.octets?, Store.octets?, live]

namespace Receiver

def obstructedShard : ShardId := { index := "logs", indexUuid := "u1", number := 0 }

/-- A new recovery of a shard whose only file is held by a snapshot. -/
def obstructed : Receiver where
  target := { recovery := 77, shard := obstructedShard }
  copy := { store := {
    files := (∅ : Std.ExtTreeMap String Content).insert "stale" (.ofBytes [0x73])
    pins := (∅ : Std.ExtTreeMap String Nat).insert "stale" 1 } }

def transferOne : List Request := [
  .step 1 77 obstructedShard <| .announce
    { names := ["new"], sizes := [1], existingNames := [], existingSizes := [] } 0,
  .step 2 77 obstructedShard <| .transfer {
    file := { name := "new", length := 1, checksum := 2013832146 }
    position := 0, content := [0x6e], isLast := true, checksum := 2013832146 } 0,
  .step 3 77 obstructedShard <| .filesComplete 0 0]

theorem allOrNothing_finalize_iff_obstructed :
    Target.Reached 77 obstructedShard (obstructed.handleAll transferOne).2.target ∧
      (obstructed.handleAll transferOne).2.phase = .ops ∧
      ((obstructed.handleAll transferOne).2.AllOrNothing
          ((obstructed.handleAll transferOne).2.handle
            (.step 4 77 obstructedShard (.finalize (-1)))).2 ↔
        ¬ (obstructed.handleAll transferOne).2.target.Ready
            (obstructed.handleAll transferOne).2.copy.store ∨
          (obstructed.handleAll transferOne).2.target.Unobstructed
              (obstructed.handleAll transferOne).2.copy.store ∧
            (obstructed.handleAll transferOne).2.target.Intact
              (obstructed.handleAll transferOne).2.copy.store ∨
          ¬ (obstructed.handleAll transferOne).2.target.Unobstructed
              (obstructed.handleAll transferOne).2.copy.store ∧
            (obstructed.handleAll transferOne).2.target.Unnoticed
              (obstructed.handleAll transferOne).2.copy.store) := by
  have reached : Target.Reached 77 obstructedShard
      (obstructed.handleAll transferOne).2.target := reached_handleAll .begun transferOne
  have inOps : (obstructed.handleAll transferOne).2.phase = .ops := by decide +kernel
  exact ⟨reached, inOps, allOrNothing_finalize_iff reached inOps 4 (-1)⟩

/-- The received file takes its live name before the stale one turns out to be
held, and keeps it although the recovery fails. -/
theorem not_allOrNothing_obstructed :
    ∃ receiver : Receiver, Target.Reached 77 obstructedShard receiver.target ∧
      receiver.phase = .ops ∧
      ¬ receiver.AllOrNothing
        (receiver.handle (.step 4 77 obstructedShard (.finalize (-1)))).2 := by
  refine ⟨(obstructed.handleAll transferOne).2, reached_handleAll .begun transferOne,
    by decide +kernel, ?_⟩
  intro given
  rcases given with ⟨done, _⟩ | ⟨_, same⟩
  · exact absurd done (by decide +kernel)
  · exact absurd (same "new") (by decide +kernel)

end Receiver

end ShardSync.Recovery
