import ShardSync.Proofs.Recovery.Counters
import ShardSync.Proofs.Recovery.Standing

/-!
# What is left of a recovery's files

A recovery keeps what it receives in files that bear its number. When it has failed
there are no such files any more. When it is done those that it has received are gone,
and any other is as it was when the recovery was started.
-/

set_option autoImplicit false

namespace ShardSync

theorem Store.exists_tempName {recovery : Int64} {file : String}
    (own : isTempOf recovery file = true) : ∃ name, file = tempName recovery name := by
  rw [isTempOf, List.isPrefixOf_iff_prefix] at own
  obtain ⟨rest, same⟩ := own
  refine ⟨.ofList rest, String.toList_inj.mp ?_⟩
  rw [tempName, String.toList_append, String.toList_ofList, same]

namespace Recovery.Receiver

variable {receiver after : Receiver} {request : Request} {reply : Reply} {recovery : Int64}
  {named : Prop} {origin : Store}

/-- The files that a recovery may change: its own temporary ones, and live ones. -/
def Touches (recovery : Int64) (name : String) : Prop :=
  Store.isTempOf recovery name = true ∨ Store.isTemp name = false

/-- Whatever a recovery is asked, it touches no temporary file of another one. -/
theorem Answer.changes (answer : receiver.Answer request reply after)
    (numbered : receiver.target.recovery = recovery)
    (sound : receiver.phase ≠ .failed → receiver.target.Sound) :
    Store.Changes (Touches recovery) receiver.copy.store after.copy.store := by
  have wider {request : Request} (name : String)
      (may : receiver.MayChange recovery request name) : Touches recovery name :=
    may.imp_right And.right
  have removes {between : Receiver} (own : between.target.recovery = recovery)
      (changes : Store.Changes (Touches recovery) receiver.copy.store between.copy.store)
      (description : String) (cancelled : Bool) (event : Log.Event)
      (fields : List (String × String)) :
      Store.Changes (Touches recovery) receiver.copy.store
        (between.abort description cancelled event fields).copy.store := by
    exact changes.trans ((changes_abort between ..).mono fun name temp => .inl (own ▸ temp))
  cases answer with
  | cancelled =>
      unfold cancel
      split
      · exact .refl _
      · exact removes numbered (.refl _) ..
  | refused => exact .refl _
  | @performed number other shard command _ _ going ran =>
      have changes := changes_perform numbered (sound (not_failed_of_going going)) number other
        shard command
      rw [ran] at changes
      exact changes.2.mono wider
  | @failed number other shard command error between going ran =>
      have changes := changes_perform numbered (sound (not_failed_of_going going)) number other
        shard command
      rw [ran] at changes
      exact removes changes.1 (changes.2.mono wider) ..

/-- What a recovery has made of the files that bear its number, of which `origin` holds
those that were there at its start. Failed recoveries clean up if the store is `named`
properly. -/
structure Tidy (named : Prop) (recovery : Int64) (origin : Store) (receiver : Receiver) :
    Prop where
  numbered : receiver.target.recovery = recovery
  sound : receiver.phase ≠ .failed → receiver.target.Sound
  spared : receiver.phase ≠ .failed → ∀ name, name ∉ receiver.target.incoming →
    receiver.copy.store.files[Store.tempName recovery name]? =
      origin.files[Store.tempName recovery name]?
  promoted : receiver.phase = .done → ∀ name, name ∈ receiver.target.incoming →
    receiver.copy.store.files[Store.tempName recovery name]? = none
  cleared : named → receiver.phase = .failed → ∀ name,
    receiver.copy.store.files[Store.tempName recovery name]? = none

namespace Tidy

theorem begun (recovery : Int64) (shard : ShardId) (copy : ShardCopy) (journal : Log.Journal) :
    Tidy named recovery copy.store { target := { recovery, shard }, copy, journal } where
  numbered := rfl
  sound _ := Target.sound_begun recovery shard
  spared _ _ _ := rfl
  promoted phase := by cases phase
  cleared _ phase := by cases phase

/-- What others do to the store is nothing to the recovery. -/
theorem elsewhere (tidy : receiver.Tidy named recovery origin)
    (target : after.target = receiver.target)
    (files : ∀ name, after.copy.store.files[Store.tempName recovery name]? =
      receiver.copy.store.files[Store.tempName recovery name]?) :
    after.Tidy named recovery origin where
  numbered := target ▸ tidy.numbered
  sound lasting := by
    rw [phase, target] at lasting
    exact target ▸ tidy.sound lasting
  spared lasting name fresh := by
    rw [phase, target] at lasting
    rw [files]
    exact tidy.spared lasting name (target ▸ fresh)
  promoted done name member := by
    rw [phase, target] at done
    rw [files]
    exact tidy.promoted done name (target ▸ member)
  cleared named failed name := by
    rw [phase, target] at failed
    rw [files]
    exact tidy.cleared named failed name

/-- The files that a going recovery keeps are those that it has been told of. -/
theorem owns (tidy : receiver.Tidy named recovery origin) (lasting : receiver.phase ≠ .failed) :
    receiver.Owns recovery fun file =>
      ∃ name ∈ receiver.target.incoming, file = Store.tempName recovery name where
  numbered := tidy.numbered
  stored name incoming found := by
    refine ⟨name, ?_, ?_⟩
    · rw [Std.ExtTreeMap.mem_iff_isSome_getElem?, found]
      rfl
    · rw [(tidy.sound lasting).stored name incoming found, tidy.numbered]

/-- A step that takes no new files changes those that the recovery has been told of. -/
theorem spared_of_confined (tidy : receiver.Tidy named recovery origin)
    (lasting : receiver.phase ≠ .failed)
    (changes : Store.Changes (fun file =>
      ∃ name ∈ receiver.target.incoming, file = Store.tempName recovery name)
        receiver.copy.store after.copy.store)
    (known : ∀ name, name ∈ receiver.target.incoming → name ∈ after.target.incoming) (name : String)
    (fresh : name ∉ after.target.incoming) :
    after.copy.store.files[Store.tempName recovery name]? =
      origin.files[Store.tempName recovery name]? := by
  have unknown : name ∉ receiver.target.incoming := fun member => fresh (known name member)
  rw [changes.elsewhere, tidy.spared lasting name unknown]
  rintro ⟨other, member, same⟩
  exact unknown (Store.tempName_injective same ▸ member)

theorem announce {announcement : Announcement} {totalOps : UInt32}
    (tidy : receiver.Tidy named recovery origin)
    (ran : (Receiving.announce announcement totalOps).start receiver = (.ok reply, after))
    (name : String) (fresh : name ∉ after.target.incoming) :
    after.copy.store.files[Store.tempName recovery name]? =
      origin.files[Store.tempName recovery name]? := by
  obtain ⟨begun, _, bytes, between, accepted, staged, copy, target⟩ := Receiving.announce_ok ran
  have lasting : receiver.phase ≠ .failed := by simp [begun]
  obtain ⟨entered, others⟩ :=
    Receiving.forM_stage_blank (Announcement.files_of_accept accepted).2 staged
  rw [target] at fresh
  have unlisted : name ∉ (announcement.names.zip announcement.sizes).map Prod.fst := by
    intro member
    obtain ⟨file, listed, rfl⟩ := List.mem_map.mp member
    refine fresh ?_
    rw [Std.ExtTreeMap.mem_iff_isSome_getElem?]
    change between.target.incoming[file.1]?.isSome = true
    rw [(entered file listed).1]
    rfl
  have before : name ∉ receiver.target.incoming := by
    rw [(tidy.sound lasting).unannounced begun]
    exact Std.ExtTreeMap.not_mem_empty
  have untouched := (others name unlisted).2
  rw [tidy.numbered] at untouched
  rw [copy, untouched, tidy.spared lasting name before]

theorem transfer {chunk : Chunk} (tidy : receiver.Tidy named recovery origin)
    (ran : (Receiving.transfer chunk).start receiver = (.ok reply, after)) (name : String)
    (fresh : name ∉ after.target.incoming) :
    after.copy.store.files[Store.tempName recovery name]? =
      origin.files[Store.tempName recovery name]? := by
  have lasting : receiver.phase ≠ .failed := by simp [(Receiving.transfer_ok ran).1]
  obtain ⟨incoming, entry, found, sets, _⟩ := Receiving.transfer_sets ran
  have changes := (Receiving.confined_transfer chunk receiver (tidy.owns lasting)).2
  rw [ran] at changes
  refine tidy.spared_of_confined lasting changes (fun other member => ?_) name fresh
  rw [Std.ExtTreeMap.mem_iff_isSome_getElem?] at member ⊢
  by_cases here : other = chunk.file.name
  · rw [here, sets.1]
    rfl
  · rwa [sets.2 other here]

/-- Finalizing takes the received files away. -/
theorem finalize {globalCheckpoint : Int64} (tidy : receiver.Tidy named recovery origin)
    (ran : (Receiving.finalize globalCheckpoint).start receiver = (.ok reply, after)) :
    after.target.incoming = receiver.target.incoming ∧ ∀ name,
      after.copy.store.files[Store.tempName recovery name]? =
        if name ∈ receiver.target.incoming then none
        else receiver.copy.store.files[Store.tempName recovery name]? := by
  by_cases ready : receiver.phase = .ops ∧
      receiver.target.opsRecovered = receiver.target.totalOps
  · have sound := tidy.sound (by simp [ready.1])
    obtain ⟨journal, _, outcome⟩ := Receiving.start_finalize ready.1 ready.2 globalCheckpoint
    rw [outcome] at ran
    split at ran
    · next removed store promoted =>
        cases ran
        refine ⟨rfl, fun name => ?_⟩
        refine (Store.temps_promote sound.staging.permanent promoted
          (Store.isTemp_tempName recovery name)).trans (if_congr ?_ rfl rfl)
        constructor
        · intro member
          obtain ⟨⟨live, stored⟩, listed, same⟩ := List.mem_map.mp member
          obtain ⟨incoming, found, rfl⟩ := Target.mem_received_iff.mp listed
          dsimp only at same
          rw [sound.stored live incoming found, tidy.numbered] at same
          obtain rfl := Store.tempName_injective same
          rw [Std.ExtTreeMap.mem_iff_isSome_getElem?, found]
          rfl
        · intro member
          rw [Std.ExtTreeMap.mem_iff_isSome_getElem?, Option.isSome_iff_exists] at member
          obtain ⟨incoming, found⟩ := member
          refine List.mem_map.mpr ⟨(name, incoming.tempName),
            Target.mem_received_iff.mpr ⟨incoming, found, rfl⟩, ?_⟩
          rw [sound.stored name incoming found, tidy.numbered]
    · cases ran
  · obtain ⟨error, refused⟩ := Receiving.finalize_refused ready globalCheckpoint
    rw [refused] at ran
    cases ran

theorem perform {command : Command} (tidy : receiver.Tidy named recovery origin)
    (going : receiver.isOver = false)
    (ran : command.perform.start receiver = (.ok reply, after)) :
    after.Tidy named recovery origin := by
  have lasting := not_failed_of_going going
  have leads := (Command.phase_of_ok ran).2
  refine ⟨?numbered, fun _ => Receiving.sound_perform (tidy.sound lasting) ran, ?spared, ?promoted,
    ?cleared⟩
  case numbered =>
    exact (((Receiving.enduring_perform command).part (·.1)).of_ok ran).trans tidy.numbered
  case cleared =>
    intro _ failed
    rw [leads] at failed
    cases command <;> cases failed
  case promoted =>
    intro done name member
    rw [leads] at done
    cases command with
    | finalize globalCheckpoint =>
        obtain ⟨same, files⟩ := tidy.finalize ran
        rw [files, if_pos (same ▸ member)]
    | _ => cases done
  case spared =>
    intro _ name fresh
    cases command with
    | announce => exact tidy.announce ran name fresh
    | transfer => exact tidy.transfer ran name fresh
    | filesComplete =>
        obtain ⟨_, _, _, _, _, _, _, _, copy, target, _⟩ := Receiving.filesComplete_ok ran
        rw [copy]
        rw [target] at fresh
        exact tidy.spared lasting name fresh
    | replay operations totalOps =>
        have same := ((Receiving.besidesOps_replay operations totalOps).part
          Receiving.holdings).of_ok ran
        simp only [Receiving.holdings, Prod.mk.injEq] at same
        obtain ⟨_, incoming, store⟩ := same
        have store : after.copy.store = receiver.copy.store := store
        have incoming : after.target.incoming = receiver.target.incoming := incoming
        rw [incoming] at fresh
        rw [store]
        exact tidy.spared lasting name fresh
    | finalize globalCheckpoint =>
        obtain ⟨same, files⟩ := tidy.finalize ran
        rw [same] at fresh
        rw [files, if_neg fresh]
        exact tidy.spared lasting name fresh

/-- A recovery that is given up removes what bears its number. -/
theorem abort {between : Receiver} (numbered : between.target.recovery = recovery)
    (going : between.isOver = false) (wellNamed : named → between.copy.store.WellNamed)
    (description : String) (cancelled : Bool) (event : Log.Event)
    (fields : List (String × String)) :
    (between.abort description cancelled event fields).Tidy named recovery origin where
  numbered := (recovery_abort ..).trans numbered
  sound lasting := absurd (phase_abort going ..) lasting
  spared lasting := absurd (phase_abort going ..) lasting
  promoted done := by
    rw [phase_abort going] at done
    cases done
  cleared proper _ name :=
    cleared_abort (wellNamed proper) _ _ _ _ (numbered ▸ Store.isTempOf_tempName recovery name)

theorem answer (tidy : receiver.Tidy named recovery origin)
    (wellNamed : named → receiver.copy.store.WellNamed)
    (answer : receiver.Answer request reply after) : after.Tidy named recovery origin := by
  cases answer with
  | @cancelled _ _ reason =>
      cases ended : receiver.isOver with
      | true =>
          rw [cancel_of_isOver ended]
          exact tidy
      | false =>
          unfold cancel
          rw [if_neg (by simpa [isOver] using ended)]
          exact abort tidy.numbered ended wellNamed ..
  | refused => exact tidy
  | performed going ran => exact tidy.perform going ran
  | @failed number other shard command error between going ran =>
      have changes := changes_perform tidy.numbered (tidy.sound (not_failed_of_going going)) number
        other shard command
      rw [ran] at changes
      exact abort changes.1 (Receiving.isOver_perform going ran)
        (fun proper => (wellNamed proper).changes changes.2) ..

end Tidy

end Recovery.Receiver

end ShardSync
