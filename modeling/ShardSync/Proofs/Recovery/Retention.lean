import ShardSync.Proofs.Recovery.Effects

/-!
# What requests leave of a file

No request makes a file longer than it was announced, or changes one that is verified. A
chunk that is taken changes octets of its own file only, and marks it as verified only if
what is there then has the checksum that the chunk says.
-/

set_option autoImplicit false

namespace ShardSync.Recovery

variable {recovery : Int64} {before after : Receiver} {request : Request} {reply : Reply}
  {name : String} {incoming entry : Incoming} {chunk : Chunk} {store written : Store}

/-- What is there of a file has the announced length, and the checksum too if the file is
verified. -/
structure Incoming.Holds (incoming : Incoming) (store : Store) : Prop where
  sized : ∀ content, store.files[incoming.tempName]? = some content →
    content.length = incoming.length
  verified : incoming.isVerified = true → ∃ file, incoming.file? = some file ∧
    file.length.toNat = incoming.length ∧
    ∀ content, store.files[incoming.tempName]? = some content → content.checksum = file.checksum

theorem Incoming.Holds.of_sheds (holds : incoming.Holds store)
    (sheds : Store.Sheds incoming.tempName store written) : incoming.Holds written := by
  have there {content : Content} (found : written.files[incoming.tempName]? = some content) :
      store.files[incoming.tempName]? = some content := by
    rcases sheds with same | gone
    · rwa [← same]
    · exact absurd (gone.symm.trans found) nofun
  refine ⟨fun content found => holds.sized content (there found), fun verified => ?_⟩
  obtain ⟨file, described, length, checksum⟩ := holds.verified verified
  exact ⟨file, described, length, fun content found => checksum content (there found)⟩

theorem Incoming.Holds.blank (tempName : String) (length : Nat)
    (made : store.files[tempName]? = some (.blank length)) :
    Incoming.Holds { tempName, length } store where
  sized content found := by
    cases made.symm.trans found
    simp [← Content.length_toBytes]
  verified ended := by cases ended

theorem Discards.sheds (discards : Discards name store written) (other : String) :
    Store.Sheds other store written := by
  cases discards with
  | kept => exact .inl rfl
  | removed deleted =>
      obtain ⟨_, _, rfl⟩ := Store.delete_eq_ok_iff.mp deleted
      rw [Store.Sheds, Std.ExtTreeMap.getElem?_erase]
      split
      · exact .inr rfl
      · exact .inl rfl

/-- A chunk within the bounds of its file changes nothing but octets of this file. -/
structure Fills (incoming entry : Incoming) (before after : Store) : Prop where
  tempName : entry.tempName = incoming.tempName
  length : entry.length = incoming.length
  elsewhere : ∀ name, name ≠ incoming.tempName → after.files[name]? = before.files[name]?
  sized : (∀ content, before.files[incoming.tempName]? = some content →
      content.length = incoming.length) →
    ∀ content, after.files[incoming.tempName]? = some content → content.length = incoming.length
  present : (∃ content, before.files[incoming.tempName]? = some content) →
    ∃ content, after.files[incoming.tempName]? = some content

theorem Fills.refl (incoming : Incoming) (file? : Option FileMetadata) (store : Store) :
    Fills incoming { incoming with file? } store store where
  tempName := rfl
  length := rfl
  elsewhere _ _ := rfl
  sized kept := kept
  present there := there

theorem Enters.fills (enters : Enters chunk incoming store entry written)
    (within : chunk.position.toNat + chunk.content.length ≤ incoming.length) :
    Fills incoming entry store written ∧ entry.isVerified = incoming.isVerified ∧
      entry.file? = incoming.file? := by
  cases enters with
  | again member => exact ⟨.refl incoming incoming.file? store, rfl, rfl⟩
  | fresh new wrote =>
      obtain ⟨content, read, rfl⟩ := Store.writeAt_eq_ok_iff.mp wrote
      have there := (Store.content_eq_ok_iff.mp read).2
      refine ⟨⟨rfl, rfl, fun name other => ?_, fun kept changed found => ?_, fun _ =>
        ⟨_, Std.ExtTreeMap.getElem?_insert_self⟩⟩, rfl, rfl⟩
      · have apart : compare incoming.tempName name ≠ .eq :=
          fun same => other (Std.LawfulEqOrd.eq_of_compare same).symm
        simp [Std.ExtTreeMap.getElem?_insert, apart]
      · rw [Std.ExtTreeMap.getElem?_insert_self, Option.some.injEq] at found
        have length := kept content there
        rw [← found, ← Content.length_toBytes, Content.toBytes_overwrite,
          Bytes.length_overwrite (by rw [Content.length_toBytes, length]; exact within),
          Content.length_toBytes, length]

theorem Incoming.length_of_describe {described : Incoming} {file : FileMetadata}
    (known : incoming.describe file = .ok described) : file.length.toNat = incoming.length := by
  unfold describe at known
  split at known
  · cases known
  · next same => exact not_not.mp same

/-- No other description is taken than the known one. -/
theorem Incoming.eq_of_describe {described : Incoming} {file known : FileMetadata}
    (accepted : incoming.describe file = .ok described) (before : incoming.file? = some known) :
    known = file := by
  unfold describe at accepted
  rw [before] at accepted
  split at accepted
  · cases accepted
  · dsimp only at accepted
    split at accepted
    · assumption
    · cases accepted

theorem Incoming.describe_keeps {described : Incoming} {file known : FileMetadata}
    (accepted : incoming.describe file = .ok described) (before : incoming.file? = some known) :
    described.file? = some known := by
  rw [describe_eq_ok accepted, eq_of_describe accepted before]

/-- What becomes of a file when a chunk is taken that may be. -/
theorem Takes.fills (takes : Takes chunk incoming store entry written)
    (checked : incoming.isVerified = false →
      (∃ described, incoming.describe chunk.file = .ok described) ∧
        chunk.position.toNat + chunk.content.length ≤ incoming.length) :
    Fills incoming entry store written ∧
      (incoming.isVerified = true → entry = incoming ∧ written = store) ∧
      (incoming.isVerified = false → entry.file? = some chunk.file) ∧
      (entry.isVerified = true → incoming.isVerified = true ∨
        written.verify entry.tempName chunk.file = .ok ()) := by
  cases takes with
  | ended verified =>
      refine ⟨.refl incoming incoming.file? store, fun _ => ⟨rfl, rfl⟩, fun pending => ?_,
        fun _ => .inl verified⟩
      exact absurd (pending.symm.trans verified) Bool.false_ne_true
  | going pending enters lacking =>
      obtain ⟨fills, still, described⟩ := enters.fills (checked pending).2
      refine ⟨⟨fills.tempName, fills.length, fills.elsewhere, fills.sized, fills.present⟩,
        fun verified => ?_, fun _ => described, fun verified => .inl (still.symm.trans verified)⟩
      exact absurd (pending.symm.trans verified) Bool.false_ne_true
  | completed pending enters whole valid =>
      obtain ⟨fills, _, described⟩ := enters.fills (checked pending).2
      refine ⟨⟨fills.tempName, fills.length, fills.elsewhere, fills.sized, fills.present⟩,
        fun verified => ?_, fun _ => described, fun _ => .inr valid⟩
      exact absurd (pending.symm.trans verified) Bool.false_ne_true

theorem Takes.holds (takes : Takes chunk incoming store entry written)
    (checked : incoming.isVerified = false →
      (∃ described, incoming.describe chunk.file = .ok described) ∧
        chunk.position.toNat + chunk.content.length ≤ incoming.length)
    (holds : incoming.Holds store) : entry.Holds written := by
  obtain ⟨fills, same, described, valid⟩ := takes.fills checked
  refine ⟨fun content found => ?_, fun verified => ?_⟩
  · rw [fills.tempName] at found
    rw [fills.length]
    exact fills.sized holds.sized content found
  · cases ended : incoming.isVerified with
    | true =>
        obtain ⟨rfl, rfl⟩ := same ended
        exact holds.verified verified
    | false =>
        obtain ⟨_, accepted⟩ := (checked ended).1
        refine ⟨chunk.file, described ended, ?_, fun content found => ?_⟩
        · rw [fills.length]
          exact Incoming.length_of_describe accepted
        · have valid := (valid verified).resolve_left (by simp [ended])
          obtain ⟨actual, measured, _, checksum⟩ := Store.verify_eq_ok_iff.mp valid
          obtain ⟨_, there, known, rfl⟩ := Store.metadata_eq_ok_iff.mp measured
          cases found.symm.trans known
          exact checksum

/-- A chunk that is not taken may have been written, as long as it is within its file. -/
theorem Spoils.fills (spoils : Spoils chunk incoming store entry written)
    (pending : incoming.isVerified = false) :
    entry.isVerified = false ∧
      (∀ known, incoming.file? = some known → entry.file? = some known) ∧
      ∃ between, Fills incoming entry store between ∧
        ∀ name, Store.Sheds name between written := by
  have described {file : FileMetadata} {described : Incoming}
      (known : incoming.describe file = .ok described) :
      described.isVerified = false ∧ Fills incoming described store store := by
    rw [Incoming.describe_eq_ok known]
    exact ⟨pending, .refl ..⟩
  cases spoils with
  | undescribed refused =>
      exact ⟨pending, fun _ => id, _, .refl incoming incoming.file? store, fun _ => .inl rfl⟩
  | outside known beyond | unwritten known refused =>
      obtain ⟨still, fills⟩ := described known
      exact ⟨still, fun _ => Incoming.describe_keeps known, _, fills, fun _ => .inl rfl⟩
  | damaged known differs discards =>
      obtain ⟨still, fills⟩ := described known
      exact ⟨still, fun _ => Incoming.describe_keeps known, _, fills, discards.sheds⟩
  | unverified known within enters whole refused discards =>
      obtain ⟨still, _⟩ := described known
      have kept (file : FileMetadata) (before : incoming.file? = some file) :=
        Incoming.describe_keeps known before
      rw [Incoming.describe_eq_ok known] at enters still kept
      obtain ⟨fills, same, unchanged⟩ := enters.fills within
      refine ⟨same.trans still, fun file before => unchanged.trans (kept file before), _,
        ⟨fills.tempName, fills.length, fills.elsewhere, fills.sized, fills.present⟩,
        discards.sheds⟩

/-- What is true of a file of a recovery at any time. As long as it goes on, the file is
there. -/
structure Receiver.Retained (recovery : Int64) (receiver : Receiver) (name : String)
    (incoming : Incoming) : Prop where
  stored : incoming.tempName = Store.tempName recovery name
  holds : incoming.Holds receiver.copy.store
  present : receiver.isOver = false →
    ∃ content, receiver.copy.store.files[incoming.tempName]? = some content

/-- A file may go away when the recovery fails. -/
theorem Receiver.retained_of_files {within : Store}
    (stored : incoming.tempName = Store.tempName recovery name) (holds : incoming.Holds within)
    (present : after.isOver = false →
      ∃ content, within.files[incoming.tempName]? = some content)
    (files : after.copy.store.files[incoming.tempName]? = within.files[incoming.tempName]? ∨
      after.copy.store.files[incoming.tempName]? = none ∧ after.phase = .failed) :
    after.Retained recovery name incoming where
  stored := stored
  holds := holds.of_sheds (files.imp id And.left)
  present going := by
    rcases files with same | ⟨_, failed⟩
    · rw [same]
      exact present going
    · rw [isOver_eq, failed] at going
      cases going

def Receiver.Retains (recovery : Int64) (receiver : Receiver) : Prop :=
  ∀ (name : String) (incoming : Incoming), receiver.target.incoming[name]? = some incoming →
    receiver.Retained recovery name incoming

theorem Receiver.Retained.isTemp (retained : before.Retained recovery name incoming) :
    Store.isTemp incoming.tempName = true :=
  retained.stored ▸ Store.isTemp_tempName recovery name

/-- An entry is the one that was set, or one from before. -/
theorem Receiving.Sets.cases {other : String} {known : Incoming}
    (sets : Receiving.Sets name entry before after)
    (found : after.target.incoming[other]? = some known) :
    (other = name ∧ known = entry) ∨
      (other ≠ name ∧ before.target.incoming[other]? = some known) := by
  by_cases here : other = name
  · subst here
    exact .inl ⟨rfl, Option.some.inj (found.symm.trans sets.1)⟩
  · exact .inr ⟨here, (sets.2 other here).symm.trans found⟩

theorem Receiver.Retains.apart (retains : before.Retains recovery) {other : String}
    {also : Incoming} (found : before.target.incoming[name]? = some incoming)
    (foundToo : before.target.incoming[other]? = some also) (differ : other ≠ name) :
    also.tempName ≠ incoming.tempName := by
  rw [(retains _ _ found).stored, (retains _ _ foundToo).stored]
  exact fun same => differ (Store.tempName_injective same)

theorem Receiver.Retains.effect (retains : before.Retains recovery)
    (numbered : before.target.recovery = recovery)
    (lasting : after.isOver = false → before.isOver = false)
    (effect : before.Effect request reply after) : after.Retains recovery := by
  cases effect with
  | rests _ same files =>
      intro name incoming found
      rw [same] at found
      have retained := retains name incoming found
      exact retained_of_files retained.stored retained.holds (retained.present ∘ lasting)
        (files _ retained.isTemp)
  | posts begun posts same files =>
      intro name incoming found
      rw [same] at found
      obtain ⟨size, _, rfl, made⟩ := posts name incoming found
      exact retained_of_files (congrArg (Store.tempName · name) numbered) (.blank _ _ made)
        (fun _ => ⟨_, made⟩) (files _ (Store.isTemp_tempName _ name))
  | takes found sets takes checked =>
      obtain ⟨fills, _⟩ := takes.fills checked
      have own := retains _ _ found
      intro name other known
      rcases sets.cases known with ⟨rfl, rfl⟩ | ⟨differ, known⟩
      · refine ⟨fills.tempName.trans own.stored, takes.holds checked own.holds, fun going => ?_⟩
        rw [fills.tempName]
        exact fills.present (own.present (lasting going))
      · have retained := retains _ _ known
        exact retained_of_files retained.stored retained.holds (retained.present ∘ lasting)
          (.inl (fills.elsewhere _ (retains.apart found known differ)))
  | spoils found pending sets spoils files failed =>
      obtain ⟨still, _, between, fills, shed⟩ := spoils.fills pending
      have own := retains _ _ found
      have sheds (name : String) : after.copy.store.files[name]? = between.files[name]? ∨
          after.copy.store.files[name]? = none ∧ after.phase = .failed :=
        ((shed name).trans (files name)).imp id (⟨·, failed⟩)
      have ended {fate : Prop} (going : after.isOver = false) : fate := by
        rw [isOver_eq, failed] at going
        cases going
      intro name other known
      rcases sets.cases known with ⟨rfl, rfl⟩ | ⟨differ, known⟩
      · refine retained_of_files (fills.tempName.trans own.stored) ⟨fun content there => ?_,
          fun verified => absurd (still.symm.trans verified) nofun⟩ ended (sheds _)
        rw [fills.tempName] at there
        rw [fills.length]
        exact fills.sized own.holds.sized content there
      · have retained := retains _ _ known
        exact retained_of_files retained.stored (retained.holds.of_sheds
          (.inl (fills.elsewhere _ (retains.apart found known differ)))) ended (sheds _)
  | moves _ same done files =>
      intro name incoming found
      rw [same] at found
      have retained := retains name incoming found
      refine ⟨retained.stored, retained.holds.of_sheds (.inr (files name incoming found).1),
        fun going => ?_⟩
      rw [isOver_eq, done] at going
      cases going

/-- The content of a verified file is still there, or has gone with the recovery, or is
that of the live file. -/
def Stays (name : String) (incoming : Incoming) (content : Content) (after : Receiver) : Prop :=
  after.copy.store.files[incoming.tempName]? = some content ∨
    after.copy.store.files[incoming.tempName]? = none ∧
      (after.phase = .failed ∨ after.phase = .done ∧ after.copy.store.live name = some content)

theorem Stays.of_sheds {content : Content} {within : Store}
    (there : within.files[incoming.tempName]? = some content)
    (sheds : after.copy.store.files[incoming.tempName]? = within.files[incoming.tempName]? ∨
      after.copy.store.files[incoming.tempName]? = none ∧ after.phase = .failed) :
    Stays name incoming content after :=
  sheds.imp (·.trans there) (And.imp_right .inl)

/-- No request makes a recovery forget of a file what it knows, or change a verified one. -/
theorem Receiver.Retains.endures (retains : before.Retains recovery)
    (unannounced : before.phase = .init → before.target.incoming = ∅)
    (effect : before.Effect request reply after)
    (found : before.target.incoming[name]? = some incoming) :
    ∃ entry, after.target.incoming[name]? = some entry ∧ entry.length = incoming.length ∧
      (∀ file, incoming.file? = some file → entry.file? = some file) ∧
      (incoming.isVerified = true → entry = incoming ∧
        ∀ content, before.copy.store.files[incoming.tempName]? = some content →
          Stays name incoming content after) := by
  have temp := (retains name incoming found).isTemp
  cases effect with
  | rests _ same files =>
      refine ⟨incoming, same ▸ found, rfl, fun _ => id, fun _ => ⟨rfl, fun content there => ?_⟩⟩
      exact .of_sheds there (files _ temp)
  | posts begun =>
      rw [unannounced begun] at found
      exact absurd found (by simp)
  | moves _ same done files =>
      refine ⟨incoming, same ▸ found, rfl, fun _ => id, fun _ => ⟨rfl, fun content there => ?_⟩⟩
      obtain ⟨gone, live⟩ := files name incoming found
      exact .inr ⟨gone, .inr ⟨done, live.trans there⟩⟩
  | @takes _ _ _ chunk _ _ own entry ownFound sets takes checked =>
      obtain ⟨fills, same, described, _⟩ := takes.fills checked
      by_cases here : name = chunk.file.name
      · subst here
        cases found.symm.trans ownFound
        refine ⟨entry, sets.1, fills.length, fun file known => ?_, fun verified => ?_⟩
        · cases ended : incoming.isVerified with
          | true => rwa [(same ended).1]
          | false =>
              obtain ⟨_, accepted⟩ := (checked ended).1
              rw [described ended, ← Incoming.eq_of_describe accepted known]
        · obtain ⟨rfl, unchanged⟩ := same verified
          exact ⟨rfl, fun content there => .inl (unchanged ▸ there)⟩
      · refine ⟨incoming, (sets.2 name here).trans found, rfl, fun _ => id, fun _ =>
          ⟨rfl, fun content there => .inl ?_⟩⟩
        rwa [fills.elsewhere _ (retains.apart ownFound found here)]
  | @spoils _ _ _ chunk _ _ _ own entry _ ownFound pending sets spoils files failed =>
      obtain ⟨still, described, between, fills, shed⟩ := spoils.fills pending
      by_cases here : name = chunk.file.name
      · subst here
        cases found.symm.trans ownFound
        exact ⟨entry, sets.1, fills.length, described, fun verified =>
          absurd (pending.symm.trans verified) Bool.false_ne_true⟩
      · refine ⟨incoming, (sets.2 name here).trans found, rfl, fun _ => id, fun _ =>
          ⟨rfl, fun content there => .of_sheds
            ((fills.elsewhere _ (retains.apart ownFound found here)).trans there) ?_⟩⟩
        exact ((shed _).trans (files _)).imp id fun gone => ⟨gone, failed⟩

/-- Where an entry comes from: there was one before it, which a chunk that was taken may
have verified, or the announcement has posted it. -/
theorem Receiver.Effect.origin (effect : before.Effect request reply after)
    (found : after.target.incoming[name]? = some entry) :
    (∃ incoming, before.target.incoming[name]? = some incoming ∧ entry.length = incoming.length ∧
      (entry.isVerified = true → incoming.isVerified = true ∨ incoming.isVerified = false ∧
        ∃ chunk, request.chunk? = some chunk ∧ reply = .chunkAck chunk.position ∧
          chunk.file.name = name)) ∨
    ∃ number asked shard announcement totalOps size,
      request = .step number asked shard (.announce announcement totalOps) ∧
      before.phase = .init ∧ (name, size) ∈ announcement.names.zip announcement.sizes ∧
      entry.length = size.toNat ∧ entry.isVerified = false := by
  cases effect with
  | rests _ same | moves _ same =>
      exact .inl ⟨entry, same ▸ found, rfl, .inl⟩
  | posts begun posts same =>
      rw [same] at found
      obtain ⟨size, listed, rfl, _⟩ := posts name entry found
      exact .inr ⟨_, _, _, _, _, size, rfl, begun, listed, rfl, rfl⟩
  | takes ownFound sets takes checked =>
      obtain ⟨fills, _, _, _⟩ := takes.fills checked
      refine .inl ?_
      rcases sets.cases found with ⟨rfl, rfl⟩ | ⟨_, found⟩
      · refine ⟨_, ownFound, fills.length, fun _ => ?_⟩
        rw [or_iff_not_imp_left, Bool.not_eq_true]
        exact fun pending => ⟨pending, _, rfl, rfl, rfl⟩
      · exact ⟨entry, found, rfl, .inl⟩
  | spoils ownFound pending sets spoils =>
      obtain ⟨still, _, _, fills, _⟩ := spoils.fills pending
      refine .inl ?_
      rcases sets.cases found with ⟨rfl, rfl⟩ | ⟨_, found⟩
      · exact ⟨_, ownFound, fills.length, fun verified => absurd (still.symm.trans verified) nofun⟩
      · exact ⟨entry, found, rfl, .inl⟩

/-- A chunk that is acknowledged describes its file. -/
theorem Receiver.Effect.accepts (effect : before.Effect request reply after)
    (asked : request.chunk? = some chunk) (replied : reply = .chunkAck chunk.position)
    (found : before.target.incoming[chunk.file.name]? = some incoming)
    (pending : incoming.isVerified = false) :
    ∃ entry, after.target.incoming[chunk.file.name]? = some entry ∧
      entry.file? = some chunk.file := by
  cases effect with
  | rests untaken =>
      rcases untaken with other | ⟨error, refused⟩
      · exact absurd (other.symm.trans asked) nofun
      · exact absurd (replied.symm.trans refused) nofun
  | posts | moves other => exact absurd asked (by simp_all [Request.chunk?])
  | takes ownFound sets takes checked =>
      cases asked
      cases found.symm.trans ownFound
      exact ⟨_, sets.1, (takes.fills checked).2.2.1 pending⟩
  | spoils => cases replied

end ShardSync.Recovery
