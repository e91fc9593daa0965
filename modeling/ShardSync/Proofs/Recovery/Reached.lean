import ShardSync.Proofs.Recovery.Phases

/-!
# Targets that a recovery can reach

A target is reached from a new one by handling requests. What becomes of the
copy and of the journal between two requests is left open. What is said of
reached targets holds until they fail.
-/

set_option autoImplicit false

namespace ShardSync.Recovery

namespace Announcement

theorem checkNames_ok {seen names : List String} (accepted : checkNames seen names = .ok ()) :
    names.Nodup ∧ ∀ name ∈ names, Store.isTemp name = false ∧ name ∉ seen := by
  induction names generalizing seen with
  | nil => exact ⟨List.nodup_nil, fun name member => by cases member⟩
  | cons name names ih =>
      rw [checkNames] at accepted
      split at accepted
      · cases accepted
      · next admissible =>
          rw [Bool.or_eq_true, not_or, Bool.not_eq_true, List.contains_iff_mem] at admissible
          obtain ⟨nodup, others⟩ := ih accepted
          refine ⟨List.nodup_cons.mpr ⟨fun member => ?_, nodup⟩, fun later member => ?_⟩
          · exact (others name member).2 List.mem_cons_self
          · rcases List.mem_cons.mp member with rfl | member
            · exact admissible
            · exact ⟨(others later member).1,
                fun known => (others later member).2 (List.mem_cons_of_mem _ known)⟩

theorem accept_ok {announcement : Announcement} {store : Store} {bytes : AnnouncedBytes}
    (accepted : announcement.accept store = .ok bytes) :
    checkNames [] (announcement.names ++ announcement.existingNames) = .ok () := by
  unfold accept at accepted
  cases counted : announcement.checkCounts with
  | error error => simp [counted, bind, Except.bind] at accepted
  | ok done =>
      cases named : checkNames [] (announcement.names ++ announcement.existingNames) with
      | error error => simp [counted, named, bind, Except.bind] at accepted
      | ok done => rfl

end Announcement

namespace Target

/-- What holds of a target until it fails. -/
structure Sound (target : Target) : Prop where
  /-- No operation is counted before the files are complete. -/
  uncounted : target.progress.phase = .init ∨ target.progress.phase = .files →
    target.opsRecovered = 0 ∧ target.progress.opsRecovered = 0 ∧ target.progress.opsSkipped = 0
  unannounced : target.progress.phase = .init → target.incoming = ∅
  apart : ∀ name ∈ target.existing, name ∉ target.incoming
  permanent : ∀ name ∈ target.announcedNames, Store.isTemp name = false
  stored : ∀ (name : String) (incoming : Incoming), target.incoming[name]? = some incoming →
    incoming.tempName = Store.tempName target.recovery name
  described : ∀ (name : String) (incoming : Incoming) (file : FileMetadata),
    target.incoming[name]? = some incoming → incoming.file? = some file → file.name = name
  /-- A file is verified against the metadata that came with its chunks. -/
  verified : ∀ (name : String) (incoming : Incoming), target.incoming[name]? = some incoming →
    incoming.isVerified = true → incoming.file?.isSome = true
  complete : target.progress.phase = .ops → ∀ (name : String) (incoming : Incoming),
    target.incoming[name]? = some incoming → incoming.isVerified = true

/-- The targets that a recovery of a shard can come to. -/
inductive Reached (recovery : Int64) (shard : ShardId) : Target → Prop where
  | begun : Reached recovery shard { recovery, shard }
  | handled {target : Target} {copy : ShardCopy} {journal : Log.Journal} {request : Request}
      (reached : Reached recovery shard target) :
      Reached recovery shard (({ target, copy, journal } : Receiver).handle request).2.target

theorem mem_announcedNames_iff {target : Target} {name : String} :
    name ∈ target.announcedNames ↔ name ∈ target.incoming ∨ name ∈ target.existing := by
  rw [announcedNames, List.mem_append, Std.ExtTreeMap.mem_keys]

theorem verified_of_checkVerified {target : Target} {name : String} {incoming : Incoming}
    (checked : target.checkVerified = .ok ()) (found : target.incoming[name]? = some incoming) :
    incoming.isVerified = true := by
  unfold checkVerified at checked
  split at checked
  · cases checked
  · next none =>
      rw [List.find?_eq_none] at none
      have listed := none (name, incoming)
        (Std.ExtTreeMap.mem_toList_iff_getElem?_eq_some.mpr found)
      simpa using listed

theorem sound_begun (recovery : Int64) (shard : ShardId) : Sound { recovery, shard } where
  uncounted _ := ⟨rfl, rfl, rfl⟩
  unannounced _ := rfl
  apart name member := by cases member
  permanent name member := by simp [mem_announcedNames_iff] at member
  stored name incoming found := by simp at found
  described name incoming file found := by simp at found
  verified name incoming found := by simp at found
  complete phase := by cases phase

end Target

namespace Receiving

theorem stage_ok {file : String × UInt64} {receiver final : Receiver}
    (ran : (stage file).start receiver = (.ok (), final)) :
    final.target = { receiver.target with
      incoming := receiver.target.incoming.insert file.1
        { tempName := Store.tempName receiver.target.recovery file.1
          length := file.2.toNat } } := by
  unfold stage at ran
  rw [start_get_bind] at ran
  obtain ⟨_, between, made, ran⟩ := bind_ok ran
  rw [start_throughStore] at made
  simp only [Prod.mk.injEq] at made
  simp only [start_modifyTarget, Prod.mk.injEq, true_and] at ran
  rw [← ran, ← made.2]

/-- What is known of a file right after it has been announced. -/
def IsAnnounced (recovery : Int64) (name : String) (incoming : Incoming) : Prop :=
  incoming.tempName = Store.tempName recovery name ∧ incoming.file? = none ∧
    incoming.isVerified = false

theorem forM_stage_ok {files : List (String × UInt64)} {receiver final : Receiver}
    (ran : (files.forM stage).start receiver = (.ok (), final)) :
    final.target = { receiver.target with incoming := final.target.incoming } ∧
      ∀ (name : String) (incoming : Incoming), final.target.incoming[name]? = some incoming →
        receiver.target.incoming[name]? = some incoming ∨
          name ∈ files.map Prod.fst ∧ IsAnnounced receiver.target.recovery name incoming := by
  induction files generalizing receiver with
  | nil =>
      obtain ⟨_, unchanged⟩ := pure_ok ran
      rw [unchanged]
      exact ⟨rfl, fun name incoming found => .inl found⟩
  | cons file files ih =>
      rw [List.forM_eq_forM, List.forM_cons] at ran
      obtain ⟨_, between, first, ran⟩ := bind_ok ran
      have staged := stage_ok first
      obtain ⟨same, entries⟩ := ih ran
      refine ⟨by rw [same, staged], fun name incoming found => ?_⟩
      rw [staged] at entries
      rcases entries name incoming found with before | ⟨member, announced⟩
      · rw [Std.ExtTreeMap.getElem?_insert] at before
        split at before
        · next here =>
            obtain rfl := Std.LawfulEqOrd.eq_of_compare here
            cases before
            exact .inr ⟨List.mem_cons_self, rfl, rfl, rfl⟩
        · exact .inl before
      · exact .inr ⟨List.mem_cons_of_mem _ member, announced⟩

theorem sound_announce {announcement : Announcement} {totalOps : UInt32} {reply : Reply}
    {receiver final : Receiver} (sound : receiver.target.Sound)
    (ran : (announce announcement totalOps).start receiver = (.ok reply, final)) :
    final.target.Sound := by
  obtain ⟨phase, _, bytes, between, accepted, staged, _, same⟩ := announce_ok ran
  obtain ⟨kept, entries⟩ := forM_stage_ok staged
  obtain ⟨nodup, admissible⟩ := Announcement.checkNames_ok (Announcement.accept_ok accepted)
  have announced {name : String} {incoming : Incoming}
      (found : final.target.incoming[name]? = some incoming) :
      name ∈ announcement.names ∧ IsAnnounced receiver.target.recovery name incoming := by
    rw [same] at found
    rcases entries name incoming found with before | ⟨member, announced⟩
    · rw [sound.unannounced phase, Std.ExtTreeMap.getElem?_empty] at before
      cases before
    · obtain ⟨file, inFiles, rfl⟩ := List.mem_map.mp member
      exact ⟨(List.of_mem_zip inFiles).1, announced⟩
  have listed {name : String} (member : name ∈ final.target.incoming) :
      name ∈ announcement.names := by
    rw [Std.ExtTreeMap.mem_iff_isSome_getElem?, Option.isSome_iff_exists] at member
    obtain ⟨incoming, found⟩ := member
    exact (announced found).1
  have uncounted := sound.uncounted (.inl phase)
  constructor
  case uncounted =>
    intro _
    rw [same, kept]
    exact uncounted
  case unannounced =>
    intro phase
    rw [same] at phase
    cases phase
  case apart =>
    intro name member received
    rw [same] at member
    exact (List.nodup_append.mp nodup).2.2 name (listed received) name member rfl
  case permanent =>
    intro name member
    rw [Target.mem_announcedNames_iff] at member
    refine (admissible name (List.mem_append.mpr ?_)).1
    rcases member with received | existing
    · exact .inl (listed received)
    · rw [same] at existing
      exact .inr existing
  case stored =>
    intro name incoming found
    rw [(announced found).2.1, same, kept]
  case described =>
    intro name incoming file found described
    rw [(announced found).2.2.1] at described
    cases described
  case verified =>
    intro name incoming found verified
    rw [(announced found).2.2.2] at verified
    cases verified
  case complete =>
    intro phase
    rw [same] at phase
    cases phase

/-- Of what is known of the files to receive, only the entry of one file is set. -/
def Sets (name : String) (entry : Incoming) (before after : Receiver) : Prop :=
  after.target.incoming[name]? = some entry ∧
    ∀ other, other ≠ name → after.target.incoming[other]? = before.target.incoming[other]?

theorem Sets.trans {name : String} {first second : Incoming} {before between after : Receiver}
    (earlier : Sets name first before between) (later : Sets name second between after) :
    Sets name second before after :=
  ⟨later.1, fun other differ => (later.2 other differ).trans (earlier.2 other differ)⟩

theorem Sets.refl {name : String} {entry : Incoming} {receiver : Receiver}
    (found : receiver.target.incoming[name]? = some entry) : Sets name entry receiver receiver :=
  ⟨found, fun _ _ => rfl⟩

theorem sets_setIncoming {name : String} {entry : Incoming} {receiver final : Receiver}
    (ran : (setIncoming name entry).start receiver = (.ok (), final)) :
    Sets name entry receiver final := by
  simp only [setIncoming, start_modifyTarget, Prod.mk.injEq, true_and] at ran
  rw [← ran]
  refine ⟨Std.ExtTreeMap.getElem?_insert_self, fun other differ => ?_⟩
  exact (Std.ExtTreeMap.getElem?_insert).trans <|
    if_neg fun same => differ (Std.LawfulEqOrd.eq_of_compare same).symm

theorem checkContent_ok {incoming : Incoming} {chunk : Chunk} {receiver final : Receiver}
    (ran : (checkContent incoming chunk).start receiver = (.ok (), final)) : final = receiver := by
  unfold checkContent at ran
  dsimp only at ran
  split at ran
  · rw [start_bind_of_ok (start_count _ _), start_bind_of_ok (start_log _ _ _)] at ran
    obtain ⟨_, _, _, ran⟩ := bind_ok ran
    cases ran
  · exact (pure_ok ran).2

theorem writeChunk_ok {incoming after : Incoming} {chunk : Chunk} {receiver final : Receiver}
    (found : receiver.target.incoming[chunk.file.name]? = some incoming)
    (ran : (writeChunk incoming chunk).start receiver = (.ok after, final)) :
    after.tempName = incoming.tempName ∧ after.file? = incoming.file? ∧
      Sets chunk.file.name after receiver final := by
  unfold writeChunk at ran
  split at ran
  · obtain ⟨same, unchanged⟩ := pure_ok ran
    rw [unchanged, ← same]
    exact ⟨rfl, rfl, Sets.refl found⟩
  · obtain ⟨_, written, wrote, ran⟩ := bind_ok ran
    obtain ⟨_, noted, entered, ran⟩ := bind_ok ran
    obtain ⟨same, unchanged⟩ := pure_ok ran
    have sets := sets_setIncoming entered
    rw [start_onStore] at wrote
    split at wrote
    · simp only [Prod.mk.injEq, true_and] at wrote
      rw [unchanged, ← same]
      rw [← wrote] at sets
      exact ⟨rfl, rfl, sets⟩
    · cases wrote

theorem verify_ok {incoming : Incoming} {file : FileMetadata} {receiver final : Receiver}
    (ran : (verify incoming file).start receiver = (.ok (), final)) :
    Sets file.name { incoming with isVerified := true } receiver final := by
  unfold verify at ran
  rw [start_get_bind] at ran
  split at ran
  · rw [start_bind_of_ok (start_count _ _), start_bind_of_ok (start_log _ _ _)] at ran
    obtain ⟨_, _, _, ran⟩ := bind_ok ran
    cases ran
  · obtain ⟨_, noted, entered, ran⟩ := bind_ok ran
    rw [start_bind_of_ok (start_modifyProgress _ _), start_log] at ran
    simp only [Prod.mk.injEq, true_and] at ran
    have sets := sets_setIncoming entered
    rw [← ran]
    exact ⟨sets.1, sets.2⟩

theorem describe_ok {incoming described : Incoming} {file : FileMetadata}
    (known : incoming.describe file = .ok described) :
    described.tempName = incoming.tempName ∧ described.file? = some file := by
  unfold Incoming.describe at known
  split at known
  · cases known
  · split at known
    · next before found =>
        split at known
        · next same =>
            cases known
            exact ⟨rfl, by rw [found, same]⟩
        · cases known
    · cases known
      exact ⟨rfl, rfl⟩

/-- A chunk that is taken leaves the entries of all other files alone. Its own
file is described by the metadata that came with it, unless it was verified
before. -/
theorem transfer_sets {chunk : Chunk} {reply : Reply} {receiver final : Receiver}
    (ran : (transfer chunk).start receiver = (.ok reply, final)) :
    ∃ incoming after, receiver.target.incoming[chunk.file.name]? = some incoming ∧
      Sets chunk.file.name after receiver final ∧ after.tempName = incoming.tempName ∧
      (after = incoming ∨ after.file? = some chunk.file) := by
  unfold transfer at ran
  rw [start_get_bind] at ran
  obtain ⟨_, _, ran⟩ := check_bind_ok ran
  split at ran
  · cases ran
  · next incoming found =>
      split at ran
      · obtain ⟨described, known, ran⟩ := check_bind_ok ran
        obtain ⟨sameName, sameFile⟩ := describe_ok known
        obtain ⟨_, noted, entered, ran⟩ := bind_ok ran
        obtain ⟨_, _, ran⟩ := check_bind_ok ran
        obtain ⟨_, checked, compared, ran⟩ := bind_ok ran
        have noting := sets_setIncoming entered
        rw [← checkContent_ok compared] at noting
        obtain ⟨written, wrote, writing, ran⟩ := bind_ok ran
        obtain ⟨writtenName, writtenFile, sets⟩ := writeChunk_ok noting.1 writing
        have sets := noting.trans sets
        split at ran
        · obtain ⟨_, verified, verifying, ran⟩ := bind_ok ran
          rw [(pure_ok ran).2]
          refine ⟨incoming, _, found, sets.trans (verify_ok verifying), ?_, .inr ?_⟩
          · exact writtenName.trans sameName
          · exact writtenFile.trans sameFile
        · rw [(pure_ok ran).2]
          exact ⟨incoming, written, found, sets, writtenName.trans sameName,
            .inr (writtenFile.trans sameFile)⟩
      · rw [(pure_ok ran).2]
        exact ⟨incoming, incoming, found, Sets.refl found, rfl, .inl rfl⟩

theorem sound_transfer {chunk : Chunk} {reply : Reply} {receiver final : Receiver}
    (sound : receiver.target.Sound)
    (ran : (transfer chunk).start receiver = (.ok reply, final)) : final.target.Sound := by
  obtain ⟨before, phase⟩ := transfer_ok ran
  obtain ⟨incoming, after, found, sets, sameName, described⟩ := transfer_sets ran
  have kept := besidesFiles_transfer chunk
  have member (name : String) :
      name ∈ final.target.incoming ↔ name ∈ receiver.target.incoming := by
    rw [Std.ExtTreeMap.mem_iff_isSome_getElem?, Std.ExtTreeMap.mem_iff_isSome_getElem?]
    by_cases here : name = chunk.file.name
    · rw [here, sets.1, found]
      exact iff_of_true rfl rfl
    · rw [sets.2 name here]
  have existing : final.target.existing = receiver.target.existing :=
    (kept.part (·.target.existing)).of_ok ran
  -- an entry other than that of the chunk's file is an entry from before
  have entry {name : String} {entered : Incoming}
      (there : final.target.incoming[name]? = some entered) :
      receiver.target.incoming[name]? = some entered ∨
        name = chunk.file.name ∧ entered.tempName = incoming.tempName ∧
          entered.file? = some chunk.file := by
    by_cases here : name = chunk.file.name
    · rw [here, sets.1] at there
      cases there
      rcases described with same | described
      · rw [here, same]
        exact .inl found
      · exact .inr ⟨here, sameName, described⟩
    · rw [sets.2 name here] at there
      exact .inl there
  have uncounted := sound.uncounted (.inr before)
  constructor
  case uncounted =>
    intro _
    refine ⟨?_, ?_, ?_⟩
    · exact ((kept.part (·.target.opsRecovered)).of_ok ran).trans uncounted.1
    · exact ((kept.part (·.target.progress.opsRecovered)).of_ok ran).trans uncounted.2.1
    · exact ((kept.part (·.target.progress.opsSkipped)).of_ok ran).trans uncounted.2.2
  case unannounced =>
    intro earlier
    rw [show final.target.progress.phase = .files from phase] at earlier
    cases earlier
  case apart =>
    intro name listed received
    rw [existing] at listed
    exact sound.apart name listed ((member name).mp received)
  case permanent =>
    intro name listed
    rw [Target.mem_announcedNames_iff, member, existing, ← Target.mem_announcedNames_iff] at listed
    exact sound.permanent name listed
  case stored =>
    intro name entered there
    have recovery : final.target.recovery = receiver.target.recovery :=
      (kept.part (·.target.recovery)).of_ok ran
    rw [recovery]
    rcases entry there with before | ⟨here, same, _⟩
    · exact sound.stored name entered before
    · rw [same, here]
      exact sound.stored _ incoming found
  case described =>
    intro name entered file there known
    rcases entry there with before | ⟨here, _, same⟩
    · exact sound.described name entered file before known
    · rw [known] at same
      cases same
      exact here.symm
  case verified =>
    intro name entered there verified
    rcases entry there with before | ⟨_, _, same⟩
    · exact sound.verified name entered before verified
    · rw [same]
      rfl
  case complete =>
    intro later
    rw [show final.target.progress.phase = .files from phase] at later
    cases later

theorem sound_filesComplete {startSeqNo : Int64} {totalOps : UInt32} {reply : Reply}
    {receiver final : Receiver} (sound : receiver.target.Sound)
    (ran : (filesComplete startSeqNo totalOps).start receiver = (.ok reply, final)) :
    final.target.Sound := by
  obtain ⟨_, _, verified, _, segments, engine, _, _, _, same, _⟩ := filesComplete_ok ran
  rw [same]
  constructor
  case uncounted => exact fun phase => by rcases phase with phase | phase <;> cases phase
  case unannounced => exact fun phase => by cases phase
  case apart => exact sound.apart
  case permanent => exact sound.permanent
  case stored => exact sound.stored
  case described => exact sound.described
  case verified => exact sound.verified
  case complete => exact fun _ name incoming => Target.verified_of_checkVerified verified

theorem sound_replay {operations : List Operation} {totalOps : UInt32} {reply : Reply}
    {receiver final : Receiver} (sound : receiver.target.Sound)
    (ran : (replay operations totalOps).start receiver = (.ok reply, final)) :
    final.target.Sound := by
  obtain ⟨inOps, phase⟩ := replay_ok_phase ran
  have phase : final.target.progress.phase = .ops := phase
  have kept := besidesOps_replay operations totalOps
  have incoming : final.target.incoming = receiver.target.incoming :=
    (kept.part (·.target.incoming)).of_ok ran
  have existing : final.target.existing = receiver.target.existing :=
    (kept.part (·.target.existing)).of_ok ran
  have recovery : final.target.recovery = receiver.target.recovery :=
    (kept.part (·.target.recovery)).of_ok ran
  constructor
  case uncounted =>
    intro earlier
    rw [phase] at earlier
    rcases earlier with earlier | earlier <;> cases earlier
  case unannounced =>
    intro earlier
    rw [phase] at earlier
    cases earlier
  case apart =>
    rw [incoming, existing]
    exact sound.apart
  case permanent =>
    intro name listed
    rw [Target.mem_announcedNames_iff, incoming, existing, ← Target.mem_announcedNames_iff]
      at listed
    exact sound.permanent name listed
  case stored =>
    rw [incoming, recovery]
    exact sound.stored
  case described =>
    rw [incoming]
    exact sound.described
  case verified =>
    rw [incoming]
    exact sound.verified
  case complete =>
    intro _
    rw [incoming]
    exact sound.complete inOps

theorem sound_finalize {globalCheckpoint : Int64} {reply : Reply} {receiver final : Receiver}
    (sound : receiver.target.Sound)
    (ran : (finalize globalCheckpoint).start receiver = (.ok reply, final)) :
    final.target.Sound := by
  by_cases ready : receiver.phase = .ops ∧
      receiver.target.opsRecovered = receiver.target.totalOps
  · obtain ⟨journal, _, outcome⟩ := start_finalize ready.1 ready.2 globalCheckpoint
    rw [outcome] at ran
    split at ran
    · cases ran
      constructor
      case uncounted => exact fun phase => by rcases phase with phase | phase <;> cases phase
      case unannounced => exact fun phase => by cases phase
      case apart => exact sound.apart
      case permanent => exact sound.permanent
      case stored => exact sound.stored
      case described => exact sound.described
      case verified => exact sound.verified
      case complete => exact fun phase => by cases phase
    · cases ran
  · obtain ⟨refusal, outcome⟩ := finalize_refused ready globalCheckpoint
    rw [outcome] at ran
    cases ran

theorem sound_perform {command : Command} {reply : Reply} {receiver final : Receiver}
    (sound : receiver.target.Sound)
    (ran : command.perform.start receiver = (.ok reply, final)) : final.target.Sound := by
  cases command with
  | announce announcement totalOps => exact sound_announce sound ran
  | transfer chunk totalOps => exact sound_transfer sound ran
  | filesComplete startSeqNo totalOps => exact sound_filesComplete sound ran
  | replay operations totalOps => exact sound_replay sound ran
  | finalize globalCheckpoint => exact sound_finalize sound ran

end Receiving

namespace Receiver

theorem not_failed_of_going {receiver : Receiver} (going : receiver.isOver = false) :
    receiver.phase ≠ .failed := fun failed => by
  rw [isOver_eq, failed] at going
  cases going

/-- What holds of a target until it fails is kept by the answer to any request. -/
theorem Answer.sound {receiver after : Receiver} {request : Request} {reply : Reply}
    (answer : Answer receiver request reply after)
    (sound : receiver.phase ≠ .failed → receiver.target.Sound)
    (lasting : after.phase ≠ .failed) : after.target.Sound := by
  cases answer with
  | @cancelled _ _ reason =>
      cases ended : receiver.isOver with
      | true =>
          rw [cancel_of_isOver ended] at lasting ⊢
          exact sound lasting
      | false => exact absurd (phase_cancel ended reason) lasting
  | refused ended => exact sound lasting
  | performed going ran => exact Receiving.sound_perform (sound (not_failed_of_going going)) ran
  | failed going ran => exact absurd (phase_fail going ran _) lasting

end Receiver

theorem Target.Reached.sound {recovery : Int64} {shard : ShardId} {target : Target}
    (reached : Reached recovery shard target) (lasting : target.progress.phase ≠ .failed) :
    target.Sound := by
  induction reached with
  | begun => exact sound_begun recovery shard
  | handled _ ih => exact (Receiver.answer_handle _ _).sound ih lasting

namespace Receiver

/-- Answers requests one after the other. -/
def handleAll (receiver : Receiver) : List Request → List Reply × Receiver
  | [] => ([], receiver)
  | request :: requests =>
      let (reply, receiver) := receiver.handle request
      let (replies, receiver) := receiver.handleAll requests
      (reply :: replies, receiver)

theorem handleAll_append (receiver : Receiver) (earlier later : List Request) :
    (receiver.handleAll (earlier ++ later)).1 =
        (receiver.handleAll earlier).1 ++ ((receiver.handleAll earlier).2.handleAll later).1 ∧
      (receiver.handleAll (earlier ++ later)).2 =
        ((receiver.handleAll earlier).2.handleAll later).2 := by
  induction earlier generalizing receiver with
  | nil => exact ⟨rfl, rfl⟩
  | cons request earlier ih =>
      obtain ⟨replies, final⟩ := ih (receiver.handle request).2
      exact ⟨congrArg ((receiver.handle request).1 :: ·) replies, final⟩

theorem reached_handleAll {recovery : Int64} {shard : ShardId} {receiver : Receiver}
    (reached : Target.Reached recovery shard receiver.target) (requests : List Request) :
    Target.Reached recovery shard (receiver.handleAll requests).2.target := by
  induction requests generalizing receiver with
  | nil => exact reached
  | cons request requests ih => exact ih (.handled reached)

end Receiver

end ShardSync.Recovery
