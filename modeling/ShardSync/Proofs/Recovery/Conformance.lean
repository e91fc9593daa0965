import ShardSync.Proofs.Recovery.Assembly
import ShardSync.Proofs.Recovery.Confinement
import ShardSync.Proofs.Recovery.Replay
import ShardSync.Proofs.Recovery.Script

/-!
# Targets that are driven by a session

A target that gets no other requests than those of one session is filled from
the session's source, replays the session's operations, and in the end holds the
files of the source and no others.
-/

set_option autoImplicit false

namespace ShardSync.Recovery

namespace Receiving

/-- A recovery that is made final has moved its files to their live names. -/
theorem finalize_promotes {globalCheckpoint : Int64} {reply : Reply} {receiver final : Receiver}
    (sound : receiver.target.Sound)
    (ran : (finalize globalCheckpoint).start receiver = (.ok reply, final)) :
    receiver.phase = .ops ∧ receiver.target.opsRecovered = receiver.target.totalOps ∧
      reply = .finalizeAck receiver.target.localCheckpoint ∧
      final.target = { receiver.target with
        progress.phase := .done, globalCheckpoint? := some globalCheckpoint } ∧
      receiver.target.Unobstructed receiver.copy.store ∧
      (∀ name, final.copy.store.live name =
        receiver.target.liveAfter receiver.copy.store name) ∧
      ∀ name, Store.isTemp name = true → final.copy.store.files[name]? =
        if name ∈ receiver.target.received.map (·.2) then none
        else receiver.copy.store.files[name]? := by
  by_cases ready : receiver.phase = .ops ∧
      receiver.target.opsRecovered = receiver.target.totalOps
  · obtain ⟨journal, _, outcome⟩ := start_finalize ready.1 ready.2 globalCheckpoint
    have staging := sound.staging
    have stored : ∀ file ∈ receiver.target.received,
        receiver.copy.store.isStored file.2 = true := by
      by_contra lacking
      obtain ⟨error, failed⟩ := Store.promote_of_not_stored lacking
      rw [outcome, failed] at ran
      cases ran
    have announced : ∀ file ∈ receiver.target.received,
        file.1 ∈ receiver.target.announcedNames := fun file => Target.fst_mem_announcedNames
    obtain ⟨succeeds, live⟩ := Store.promote_staged staging stored announced
    rw [outcome] at ran
    split at ran
    · next removed store promoted =>
        cases ran
        rw [promoted] at succeeds live
        obtain ⟨valid, removable⟩ := succeeds.mp ⟨removed, rfl⟩
        exact ⟨ready.1, ready.2, rfl, rfl, ⟨Target.forall_isValidName_iff.mp valid, removable⟩,
          live, fun name => Store.temps_promote staging.permanent promoted⟩
    · cases ran
  · obtain ⟨error, refused⟩ := finalize_refused ready globalCheckpoint
    rw [refused] at ran
    cases ran

/-- Finalizing a recovery whose announced files no one else has touched. -/
theorem finalize_installs {globalCheckpoint : Int64} {reply : Reply} {receiver final : Receiver}
    (sound : receiver.target.Sound) (intact : receiver.target.Intact receiver.copy.store)
    (ran : (finalize globalCheckpoint).start receiver = (.ok reply, final)) :
    receiver.phase = .ops ∧ receiver.target.opsRecovered = receiver.target.totalOps ∧
      reply = .finalizeAck receiver.target.localCheckpoint ∧
      final.target.progress = { receiver.target.progress with phase := .done } ∧
      receiver.target.Installs receiver.copy.store final.copy.store ∧
      ∀ name, Store.isTemp name = true → final.copy.store.files[name]? =
        if name ∈ receiver.target.received.map (·.2) then none
        else receiver.copy.store.files[name]? := by
  obtain ⟨inOps, recovered, replied, target, unobstructed, live, temps⟩ :=
    finalize_promotes sound ran
  exact ⟨inOps, recovered, replied, by rw [target],
    (Target.installs_iff_intact sound unobstructed live).mpr intact, temps⟩

theorem stage_eq {file : String × UInt64} {receiver final : Receiver}
    (ran : (stage file).start receiver = (.ok (), final)) :
    final.target.recovery = receiver.target.recovery ∧
      final.target.incoming = receiver.target.incoming.insert file.1
        { tempName := Store.tempName receiver.target.recovery file.1
          length := file.2.toNat } ∧
      final.copy.store.files = receiver.copy.store.files.insert
        (Store.tempName receiver.target.recovery file.1) (.blank file.2.toNat) := by
  unfold stage at ran
  rw [start_get_bind] at ran
  obtain ⟨_, between, made, ran⟩ := bind_ok ran
  simp only [start_modifyTarget, Prod.mk.injEq, true_and] at ran
  rw [start_throughStore, Prod.mk.injEq, mapError_eq_ok_iff] at made
  obtain ⟨_, _, same⟩ := Store.createSized_eq_ok_iff.mp (Prod.ext made.1 rfl)
  rw [← ran, ← made.2]
  exact ⟨rfl, rfl, congrArg Store.files same⟩

/-- Announced files are made blank, each under its own name. -/
theorem forM_stage_blank {files : List (String × UInt64)} {receiver final : Receiver}
    (distinct : (files.map Prod.fst).Nodup)
    (ran : (files.forM stage).start receiver = (.ok (), final)) :
    (∀ file ∈ files,
      final.target.incoming[file.1]? = some
        { tempName := Store.tempName receiver.target.recovery file.1, length := file.2.toNat } ∧
      final.copy.store.files[Store.tempName receiver.target.recovery file.1]? =
        some (.blank file.2.toNat)) ∧
    ∀ name ∉ files.map Prod.fst,
      final.target.incoming[name]? = receiver.target.incoming[name]? ∧
      final.copy.store.files[Store.tempName receiver.target.recovery name]? =
        receiver.copy.store.files[Store.tempName receiver.target.recovery name]? := by
  induction files generalizing receiver with
  | nil =>
      obtain ⟨_, unchanged⟩ := pure_ok ran
      rw [unchanged]
      exact ⟨fun file member => (by cases member), fun name _ => ⟨rfl, rfl⟩⟩
  | cons file files ih =>
      rw [List.map_cons, List.nodup_cons] at distinct
      rw [List.forM_eq_forM, List.forM_cons] at ran
      obtain ⟨_, between, first, ran⟩ := bind_ok ran
      obtain ⟨numbered, entered, made⟩ := stage_eq first
      obtain ⟨staged, others⟩ := ih distinct.2 ran
      rw [numbered] at staged others
      rw [entered, made] at others
      constructor
      · intro other member
        cases List.mem_cons.mp member with
        | inl same =>
            rw [same, (others _ distinct.1).1, (others _ distinct.1).2]
            exact ⟨Std.ExtTreeMap.getElem?_insert_self, Std.ExtTreeMap.getElem?_insert_self⟩
        | inr later => exact staged other later
      · intro name outside
        rw [List.map_cons, List.mem_cons, not_or] at outside
        have differ : compare file.1 name ≠ .eq :=
          fun same => outside.1 (Std.LawfulEqOrd.eq_of_compare same).symm
        have apart : compare (Store.tempName receiver.target.recovery file.1)
            (Store.tempName receiver.target.recovery name) ≠ .eq := fun same =>
          outside.1 (Store.tempName_injective (Std.LawfulEqOrd.eq_of_compare same)).symm
        rw [(others _ outside.2).1, (others _ outside.2).2, Std.ExtTreeMap.getElem?_insert,
          Std.ExtTreeMap.getElem?_insert, if_neg differ, if_neg apart]
        exact ⟨rfl, rfl⟩

end Receiving

namespace Script

/-- The bytes of a source file. -/
def octets (script : Script) (name : String) : Bytes :=
  ((script.source.store.files[name]?).map Content.toBytes).getD []

theorem octets_of_content {script : Script} {name : String} {content : Content}
    (read : script.source.store.content name = .ok content) :
    content.toBytes = script.octets name := by
  obtain ⟨_, there⟩ := Store.content_eq_ok_iff.mp read
  rw [octets, there]
  rfl

/-- The names of the temporary files that the session makes the target use. -/
def Stages (script : Script) (name : String) : Prop :=
  ∃ agenda, script.agenda? = some agenda ∧
    name ∈ agenda.inventory.toSend.map fun file =>
      Store.tempName script.start.recovery file.name

/-- What there is to be sent comes from the source's files and history. -/
theorem planned_cases {script : Script} {agenda : Agenda}
    (planned : script.agenda? = some agenda) :
    ∃ files operations, script.source.store.Lists files ∧
      operations = script.source.translog.range script.start.startSeqNo
        script.source.translog.maxSeqNo ∧
      operations.length < UInt32.size ∧
      agenda = {
        inventory := .diff files script.start.files
        totalOps := .ofNat operations.length
        batches := .ofHistory script.settings script.start.startSeqNo.toInt operations
        globalCheckpoint := max script.source.translog.maxSeqNo.toInt
          (script.start.startSeqNo.toInt - 1) } := by
  obtain ⟨files, listed, planned⟩ := Option.bind_eq_some_iff.mp planned
  have plan := eq_ok_of_toOption planned
  unfold Sending.plan at plan
  dsimp only at plan
  split at plan
  · next short =>
      cases plan
      exact ⟨files, _, Store.liveFiles_eq_ok_iff.mp (eq_ok_of_toOption listed), rfl, short, rfl⟩
  · cases plan

/-- What a recovery that is done has made of the files. Those that were sent hold
what the source holds, and the other files of the source are as before. All else
that was live is gone, and of the temporary files exactly those that were used. -/
structure Fulfilled (script : Script) (agenda : Agenda) (before after : Store)
    (progress : Progress) : Prop where
  phase : progress.phase = .done
  opsRecovered : progress.opsRecovered = agenda.totalOps.toNat
  opsTotal : progress.opsTotal = agenda.totalOps.toNat
  sent : ∀ file ∈ agenda.inventory.toSend, ∃ content, after.live file.name = some content ∧
    FileMetadata.ofContent file.name content = file ∧
    content.toBytes = (script.octets file.name).take file.length.toNat
  kept : ∀ file ∈ agenda.inventory.alreadyPresent,
    after.live file.name = before.live file.name
  others : ∀ name, (∀ file ∈ agenda.inventory.toSend, file.name ≠ name) →
    (∀ file ∈ agenda.inventory.alreadyPresent, file.name ≠ name) → after.live name = none
  temps : ∀ name, Store.isTemp name = true → after.files[name]? =
    if name ∈ agenda.inventory.toSend.map
        fun file => Store.tempName script.start.recovery file.name
    then none else before.files[name]?

/-- Whatever the session has told the target of is there, as it was announced. -/
theorem Fulfilled.described {script : Script} {agenda : Agenda} {before after : Store}
    {progress : Progress} (fulfilled : script.Fulfilled agenda before after progress)
    (planned : script.agenda? = some agenda) (asked : before.Lists script.start.files)
    {file : FileMetadata}
    (member : file ∈ agenda.inventory.toSend ++ agenda.inventory.alreadyPresent) :
    ∃ content, after.live file.name = some content ∧
      FileMetadata.ofContent file.name content = file := by
  cases List.mem_append.mp member with
  | inl unsent =>
      obtain ⟨content, live, described, _⟩ := fulfilled.sent file unsent
      exact ⟨content, live, described⟩
  | inr present =>
      obtain ⟨files, operations, _, _, _, rfl⟩ := planned_cases planned
      have held : file ∈ script.start.files :=
        List.contains_iff_mem.mp (List.mem_filter.mp present).2
      obtain ⟨content, live, described⟩ := asked.mem_iff.mp held
      exact ⟨content, (fulfilled.kept file present).trans live, described.symm⟩

end Script

namespace Receiver

variable {script : Script} {agenda : Agenda} {before : Store} {receiver : Receiver}

/-- A target that has been told what it will get, and what it has got of it. -/
structure Stocked (script : Script) (agenda : Agenda) (receiver : Receiver) : Prop where
  totalOps : receiver.target.totalOps = agenda.totalOps.toNat
  opsTotal : receiver.target.progress.opsTotal = agenda.totalOps.toNat
  existing : receiver.target.existing = agenda.inventory.alreadyPresent.map (·.name)
  listed : ∀ file ∈ agenda.inventory.toSend, file.name ∈ receiver.target.incoming
  filled : ∀ (name : String) (incoming : Incoming),
    receiver.target.incoming[name]? = some incoming →
      ∃ file ∈ agenda.inventory.toSend, file.name = name ∧
        ∃ content, receiver.copy.store.files[incoming.tempName]? = some content ∧
          Filled script.settings.chunkSize (script.octets name) file incoming content

/-- What holds of a target that is driven by a session, until it is over. -/
structure Conforms (script : Script) (before : Store) (receiver : Receiver) : Prop where
  numbered : receiver.target.recovery = script.start.recovery
  going : receiver.isOver = false
  sound : receiver.target.Sound
  changes : Store.Changes script.Stages before receiver.copy.store
  stocked : receiver.phase ≠ .init →
    ∃ agenda, script.agenda? = some agenda ∧ receiver.Stocked script agenda
  replayed : receiver.phase = .ops →
    receiver.target.nextSeqNo =
        .ofInt (script.start.startSeqNo.toInt + receiver.target.opsRecovered) ∧
      receiver.target.progress.opsRecovered = receiver.target.opsRecovered

theorem conforms_begun (script : Script) (copy : ShardCopy) (journal : Log.Journal) :
    Conforms script copy.store
      { target := { recovery := script.start.recovery, shard := script.start.shard }
        copy, journal } where
  numbered := rfl
  going := rfl
  sound := Target.sound_begun _ _
  changes := .refl _
  stocked elsewhere := absurd rfl elsewhere
  replayed inOps := by cases inOps

/-- The target keeps its files under the names that the session makes it use. -/
theorem Conforms.owns (conforms : receiver.Conforms script before) :
    receiver.Owns script.start.recovery script.Stages where
  numbered := conforms.numbered
  stored name incoming found := by
    by_cases fresh : receiver.phase = .init
    · rw [conforms.sound.unannounced fresh] at found
      simp at found
    · obtain ⟨agenda, planned, stocked⟩ := conforms.stocked fresh
      obtain ⟨file, member, rfl, _⟩ := stocked.filled name incoming found
      rw [conforms.sound.stored _ _ found, conforms.numbered]
      exact ⟨agenda, planned, List.mem_map.mpr ⟨file, member, rfl⟩⟩

theorem Conforms.after {step : Receiving Reply} {reply : Reply} {after : Receiver}
    (conforms : receiver.Conforms script before)
    (confined : Receiving.Confined script.start.recovery script.Stages step)
    (ran : step.start receiver = (.ok reply, after)) :
    after.target.recovery = script.start.recovery ∧
      Store.Changes script.Stages before after.copy.store := by
  have kept := confined receiver conforms.owns
  rw [ran] at kept
  exact ⟨kept.1.numbered, conforms.changes.trans kept.2⟩

/-- No two files of a listing that are sent have the same name. -/
theorem nodup_toSend (planned : script.agenda? = some agenda) :
    (agenda.inventory.toSend.map (·.name)).Nodup := by
  obtain ⟨files, operations, lists, _, _, rfl⟩ := Script.planned_cases planned
  exact (List.filter_sublist.map _).nodup lists.nodup

theorem Conforms.announce {reply : Reply} {after : Receiver}
    (conforms : receiver.Conforms script before) (planned : script.agenda? = some agenda)
    (ran : (Receiving.announce agenda.announcement agenda.totalOps).start receiver =
      (.ok reply, after)) : after.Conforms script before ∧ reply = .ack := by
  obtain ⟨phase, replied, bytes, between, _, staged, copy, target⟩ := Receiving.announce_ok ran
  obtain ⟨_, entries⟩ := Receiving.forM_stage_ok staged
  have zipped : agenda.announcement.names.zip agenda.announcement.sizes =
      agenda.inventory.toSend.map fun file => (file.name, file.length) := by
    simp [Agenda.announcement, List.zip_map']
  have names : (agenda.inventory.toSend.map fun file => (file.name, file.length)).map Prod.fst =
      agenda.inventory.toSend.map (·.name) := by
    rw [List.map_map]
    rfl
  rw [zipped] at staged entries
  obtain ⟨blank, _⟩ := Receiving.forM_stage_blank (names ▸ nodup_toSend planned) staged
  have own : ∀ name ∈ agenda.announcement.names,
      script.Stages (Store.tempName script.start.recovery name) := by
    intro name member
    obtain ⟨file, inSend, rfl⟩ := List.mem_map.mp member
    exact ⟨agenda, planned, List.mem_map.mpr ⟨file, inSend, rfl⟩⟩
  obtain ⟨numbered, changes⟩ := conforms.after (Receiving.confined_announce own _) ran
  have moved : after.phase = .files := by rw [Receiver.phase, target]
  have incoming : after.target.incoming = between.target.incoming := by rw [target]
  refine ⟨⟨numbered, isOver_of_phase moved, Receiving.sound_announce conforms.sound ran,
    changes, fun _ => ⟨agenda, planned, ?_⟩, fun inOps => ?_⟩, replied⟩
  · constructor
    case totalOps => rw [target]
    case opsTotal => rw [target]
    case existing =>
      rw [target]
      rfl
    case listed =>
      intro file member
      rw [incoming, Std.ExtTreeMap.mem_iff_isSome_getElem?,
        (blank _ (List.mem_map_of_mem member)).1]
      rfl
    case filled =>
      intro name entry found
      rw [incoming] at found
      cases entries name entry found with
      | inl earlier =>
          rw [conforms.sound.unannounced phase] at earlier
          simp at earlier
      | inr fresh =>
          rw [names] at fresh
          obtain ⟨file, member, rfl⟩ := List.mem_map.mp fresh.1
          obtain ⟨entered, made⟩ := blank _ (List.mem_map_of_mem member)
          rw [entered] at found
          cases found
          exact ⟨file, member, rfl, _, copy ▸ made, .blank ..⟩
  · rw [moved] at inOps
    cases inOps

/-- A target that has got all that it knows from one agenda. -/
theorem Conforms.stock (conforms : receiver.Conforms script before)
    (planned : script.agenda? = some agenda) (announced : receiver.phase ≠ .init) :
    receiver.Stocked script agenda := by
  obtain ⟨other, also, stocked⟩ := conforms.stocked announced
  rw [planned, Option.some.injEq] at also
  rw [also]
  exact stocked

theorem Conforms.transfer {piece : Piece} {chunk : Chunk} {reply : Reply} {after : Receiver}
    (conforms : receiver.Conforms script before) (planned : script.agenda? = some agenda)
    (member : piece ∈ script.pieces agenda)
    (made : piece.chunk script.source.store = .ok chunk)
    (ran : (Receiving.transfer chunk).start receiver = (.ok reply, after)) :
    after.Conforms script before := by
  obtain ⟨phase, moved⟩ := Receiving.transfer_ok ran
  obtain ⟨incoming, entry, found, sets, takes⟩ := Receiving.transfer_takes ran
  have kept := Receiving.besidesFiles_transfer chunk
  obtain ⟨numbered, changes⟩ := conforms.after (Receiving.confined_transfer chunk) ran
  have stocked := conforms.stock planned (by rw [phase]; decide)
  obtain ⟨file, inSend, inFile⟩ := List.mem_flatMap.mp member
  have named := (Piece.sent inFile made fun _ => Script.octets_of_content).1
  obtain ⟨known, alsoSent, same, content, there, filled⟩ := stocked.filled _ _ found
  have one : known = file := by
    apply List.inj_on_of_nodup_map (nodup_toSend planned) alsoSent inSend
    rw [same, named]
  subst one
  rw [named] at found filled sets
  obtain ⟨stored, others, written⟩ :=
    filled.takes there inFile made (fun _ => Script.octets_of_content) takes
  have tempName {name : String} {entry : Incoming}
      (found : receiver.target.incoming[name]? = some entry) :
      entry.tempName = Store.tempName script.start.recovery name := by
    rw [conforms.sound.stored name entry found, conforms.numbered]
  refine ⟨numbered, ?_, Receiving.sound_transfer conforms.sound ran, changes,
    fun _ => ⟨agenda, planned, ?_⟩, fun inOps => ?_⟩
  · exact isOver_of_phase moved
  · constructor
    case totalOps => exact ((kept.part (·.target.totalOps)).of_ok ran).trans stocked.totalOps
    case opsTotal =>
      exact ((kept.part (·.target.progress.opsTotal)).of_ok ran).trans stocked.opsTotal
    case existing => exact ((kept.part (·.target.existing)).of_ok ran).trans stocked.existing
    case listed =>
      intro other sent
      have before := stocked.listed other sent
      rw [Std.ExtTreeMap.mem_iff_isSome_getElem?] at before ⊢
      by_cases here : other.name = known.name
      · rw [here, sets.1]
        rfl
      · rw [sets.2 _ here]
        exact before
    case filled =>
      intro name later entered
      by_cases here : name = known.name
      · rw [here, sets.1] at entered
        cases entered
        rw [here]
        exact ⟨known, inSend, rfl, stored ▸ written⟩
      · rw [sets.2 _ here] at entered
        obtain ⟨other, sent, rfl, content, there, filled⟩ := stocked.filled _ _ entered
        refine ⟨other, sent, rfl, content, ?_, filled⟩
        rw [others, there]
        rw [tempName entered, tempName found]
        exact fun equal => here (Store.tempName_injective equal)
  · rw [moved] at inOps
    cases inOps

theorem Stocked.of_same {after : Receiver} (stocked : receiver.Stocked script agenda)
    (totalOps : after.target.totalOps = receiver.target.totalOps)
    (opsTotal : after.target.progress.opsTotal = receiver.target.progress.opsTotal)
    (existing : after.target.existing = receiver.target.existing)
    (incoming : after.target.incoming = receiver.target.incoming)
    (store : after.copy.store = receiver.copy.store) : after.Stocked script agenda where
  totalOps := totalOps.trans stocked.totalOps
  opsTotal := opsTotal.trans stocked.opsTotal
  existing := existing.trans stocked.existing
  listed := by
    rw [incoming]
    exact stocked.listed
  filled := by
    rw [incoming, store]
    exact stocked.filled

theorem Conforms.filesComplete {reply : Reply} {after : Receiver}
    (conforms : receiver.Conforms script before) (planned : script.agenda? = some agenda)
    (ran : (Receiving.filesComplete script.start.startSeqNo agenda.totalOps).start receiver =
      (.ok reply, after)) : after.Conforms script before ∧ reply = .ack := by
  obtain ⟨phase, replied, _, _, _, engine, _, _, copy, target, _⟩ :=
    Receiving.filesComplete_ok ran
  obtain ⟨numbered, changes⟩ := conforms.after (Receiving.confined_filesComplete _ _) ran
  have stocked := conforms.stock planned (by rw [phase]; decide)
  have moved : after.phase = .ops := by rw [Receiver.phase, target]
  refine ⟨⟨numbered, going_of_ops moved, Receiving.sound_filesComplete conforms.sound ran, changes,
    fun _ => ⟨agenda, planned, ?_⟩, fun _ => ?_⟩, replied⟩
  · apply stocked.of_same
    · rw [target]
    · rw [target]
    · rw [target]
    · rw [target]
    · rw [copy]
  · obtain ⟨none, also, _⟩ := conforms.sound.uncounted (.inr phase)
    rw [target]
    dsimp only
    rw [none, also, Int.natCast_zero, Int.add_zero, Int64.ofInt_toInt]
    exact ⟨rfl, rfl⟩

theorem Conforms.replay {operations : List Operation} {totalOps : UInt32} {reply : Reply}
    {after : Receiver} (conforms : receiver.Conforms script before)
    (ran : (Receiving.replay operations totalOps).start receiver = (.ok reply, after)) :
    after.Conforms script before ∧ ∃ checkpoint, reply = .opsAck checkpoint := by
  obtain ⟨phase, _, decisions, replayed, engine, replaying, _, settled, replied⟩ :=
    Receiving.replay_eq_ok_iff.mp ran
  have kept := Receiving.besidesOps_replay operations totalOps
  obtain ⟨numbered, changes⟩ := conforms.after (Receiving.confined_replay _ _) ran
  obtain ⟨agenda, planned, stocked⟩ := conforms.stocked (by rw [phase]; decide)
  have moved := (Receiving.replay_ok_phase ran).2
  refine ⟨⟨numbered, going_of_ops moved, Receiving.sound_replay conforms.sound ran, changes,
    fun _ => ⟨agenda, planned, ?_⟩, fun _ => ?_⟩, _, replied⟩
  · apply stocked.of_same
    · exact (kept.part (·.target.totalOps)).of_ok ran
    · exact (kept.part (·.target.progress.opsTotal)).of_ok ran
    · exact (kept.part (·.target.existing)).of_ok ran
    · exact (kept.part (·.target.incoming)).of_ok ran
    · rw [settled]
      exact replaying.target.2.1
  · obtain ⟨cursor, counted⟩ := conforms.replayed phase
    have all := Decision.length_applied_add_countP decisions
    rw [settled]
    simp only [settle, replaying.nextSeqNo, replaying.opsRecovered, replaying.progress]
    refine ⟨?_, by omega⟩
    rw [cursor, ← Int64.ofInt_eq_ofNat, ← Int64.ofInt_add, Int.natCast_add, Int.add_assoc]

theorem Conforms.live (conforms : receiver.Conforms script before) (name : String) :
    receiver.copy.store.live name = before.live name := by
  unfold Store.live
  cases temp : Store.isTemp name with
  | true => rfl
  | false =>
      simp only [Bool.false_eq_true, if_false]
      apply conforms.changes.elsewhere
      rintro ⟨agenda, _, member⟩
      obtain ⟨file, _, rfl⟩ := List.mem_map.mp member
      rw [Store.isTemp_tempName] at temp
      cases temp

/-- What has been received when operations are replayed is what was sent. -/
theorem Stocked.received (stocked : receiver.Stocked script agenda)
    (sound : receiver.target.Sound) (inOps : receiver.phase = .ops) {name : String}
    {incoming : Incoming} (found : receiver.target.incoming[name]? = some incoming) :
    ∃ file ∈ agenda.inventory.toSend, file.name = name ∧ incoming.file? = some file ∧
      ∃ content, receiver.copy.store.files[incoming.tempName]? = some content ∧
        FileMetadata.ofContent name content = file ∧
        content.toBytes = (script.octets name).take file.length.toNat := by
  obtain ⟨file, member, rfl, content, there, filled⟩ := stocked.filled name incoming found
  have verified := sound.complete inOps _ incoming found
  obtain ⟨known, described⟩ :=
    Option.isSome_iff_exists.mp (sound.verified _ incoming found verified)
  have same := filled.described known described
  exact ⟨file, member, rfl, same ▸ described, content, there, (filled.verified verified).2,
    filled.toBytes verified⟩

/-- The temporary files of the recovery are those of the files that are sent. -/
theorem Conforms.mem_received_iff (conforms : receiver.Conforms script before)
    (stocked : receiver.Stocked script agenda) {name : String} :
    name ∈ receiver.target.received.map (·.2) ↔
      name ∈ agenda.inventory.toSend.map
        fun file => Store.tempName script.start.recovery file.name := by
  constructor
  · intro used
    obtain ⟨⟨live, stored⟩, member, rfl⟩ := List.mem_map.mp used
    obtain ⟨incoming, found, rfl⟩ := Target.mem_received_iff.mp member
    obtain ⟨file, sent, rfl, _⟩ := stocked.filled live incoming found
    refine List.mem_map.mpr ⟨file, sent, ?_⟩
    rw [conforms.sound.stored _ _ found, conforms.numbered]
  · intro staged
    obtain ⟨file, sent, rfl⟩ := List.mem_map.mp staged
    have listed := stocked.listed file sent
    rw [Std.ExtTreeMap.mem_iff_isSome_getElem?, Option.isSome_iff_exists] at listed
    obtain ⟨incoming, found⟩ := listed
    refine List.mem_map.mpr
      ⟨(file.name, incoming.tempName), Target.mem_received_iff.mpr ⟨incoming, found, rfl⟩, ?_⟩
    rw [conforms.sound.stored _ _ found, conforms.numbered]

/-- No one else has touched the announced files. -/
theorem Conforms.intact (conforms : receiver.Conforms script before)
    (asked : before.Lists script.start.files) (planned : script.agenda? = some agenda)
    (inOps : receiver.phase = .ops) : receiver.target.Intact receiver.copy.store := by
  have stocked := conforms.stock planned (by rw [inOps]; decide)
  constructor
  case received =>
    intro name incoming found
    obtain ⟨file, _, _, described, content, there, measured, _⟩ :=
      stocked.received conforms.sound inOps found
    exact ⟨content, file, there, described, measured⟩
  case existing =>
    intro name member
    rw [stocked.existing] at member
    obtain ⟨file, present, rfl⟩ := List.mem_map.mp member
    obtain ⟨files, operations, _, _, _, rfl⟩ := Script.planned_cases planned
    have held := (List.mem_filter.mp present).2
    obtain ⟨content, there, _⟩ := asked.mem_iff.mp (List.contains_iff_mem.mp held)
    rw [conforms.live, there]
    rfl

theorem Conforms.finalize {globalCheckpoint : Int64} {reply : Reply} {after : Receiver}
    (conforms : receiver.Conforms script before) (asked : before.Lists script.start.files)
    (planned : script.agenda? = some agenda)
    (ran : (Receiving.finalize globalCheckpoint).start receiver = (.ok reply, after)) :
    script.Fulfilled agenda before after.copy.store after.target.progress ∧
      reply = .finalizeAck
        (.ofInt (script.start.startSeqNo.toInt + agenda.totalOps.toNat - 1)) := by
  have inOps : receiver.phase = .ops := (Command.phase_of_ok
    (show (Command.finalize globalCheckpoint).perform.start receiver = _ from ran)).1
  have stocked := conforms.stock planned (by rw [inOps]; decide)
  obtain ⟨_, complete, replied, progress, installs, temps⟩ :=
    Receiving.finalize_installs conforms.sound (conforms.intact asked planned inOps) ran
  obtain ⟨cursor, counted⟩ := conforms.replayed inOps
  rw [stocked.totalOps] at complete
  constructor
  · constructor
    case phase => rw [progress]
    case opsRecovered =>
      rw [progress]
      exact counted.trans complete
    case opsTotal =>
      rw [progress]
      exact stocked.opsTotal
    case sent =>
      intro file member
      have listed := stocked.listed file member
      rw [Std.ExtTreeMap.mem_iff_isSome_getElem?, Option.isSome_iff_exists] at listed
      obtain ⟨incoming, found⟩ := listed
      obtain ⟨content, _, live, stored, _⟩ := installs.received _ incoming found
      obtain ⟨known, sent, same, _, other, there, measured, octets⟩ :=
        stocked.received conforms.sound inOps found
      rw [stored, Option.some.injEq] at there
      have one := List.inj_on_of_nodup_map (nodup_toSend planned) sent member same
      rw [← there, one] at measured octets
      exact ⟨content, live, measured, octets⟩
    case kept =>
      intro file member
      rw [(installs.existing file.name ?listed).2, conforms.live]
      rw [stocked.existing]
      exact List.mem_map_of_mem member
    case others =>
      intro name unsent absent
      apply installs.others
      rw [Target.mem_announcedNames_iff, not_or, stocked.existing]
      constructor
      · intro received
        rw [Std.ExtTreeMap.mem_iff_isSome_getElem?, Option.isSome_iff_exists] at received
        obtain ⟨incoming, found⟩ := received
        obtain ⟨file, sent, same, _⟩ := stocked.filled name incoming found
        exact unsent file sent same
      · intro existing
        obtain ⟨file, present, same⟩ := List.mem_map.mp existing
        exact absent file present same
    case temps =>
      intro name temp
      rw [temps name temp]
      by_cases staged : name ∈ agenda.inventory.toSend.map
          fun file => Store.tempName script.start.recovery file.name
      · rw [if_pos staged, if_pos ((conforms.mem_received_iff stocked).mpr staged)]
      · rw [if_neg staged, if_neg fun used =>
          staged ((conforms.mem_received_iff stocked).mp used)]
        apply conforms.changes.elsewhere
        rintro ⟨other, also, member⟩
        rw [planned, Option.some.injEq] at also
        rw [← also] at member
        exact staged member
  · rw [replied, Target.localCheckpoint, cursor, complete, Int64.ofInt_sub]
    rfl

/-- How a target that is driven by a session answers its requests. -/
inductive Responds (script : Script) (before : Store) : Request → Reply → Receiver → Prop where
  | continued {request : Request} {reply : Reply} {after : Receiver}
      (ordinary : request.isOrdinary = true) (conforms : after.Conforms script before)
      (pending : ∀ checkpoint, reply ≠ .finalizeAck checkpoint) :
      Responds script before request reply after
  | failed {request : Request} {reply : Reply} {after : Receiver} (ended : after.phase = .failed)
      (pending : ∀ checkpoint, reply ≠ .finalizeAck checkpoint) :
      Responds script before request reply after
  | finished {number recovery globalCheckpoint : Int64} {shard : ShardId} {agenda : Agenda}
      {after : Receiver} (planned : script.agenda? = some agenda)
      (fulfilled :
        script.Fulfilled agenda before after.copy.store after.target.progress) :
      Responds script before (.step number recovery shard (.finalize globalCheckpoint))
        (.finalizeAck (.ofInt (script.start.startSeqNo.toInt + agenda.totalOps.toNat - 1))) after

theorem Conforms.responds {request : Request} {reply : Reply} {after : Receiver}
    (conforms : receiver.Conforms script before) (asked : before.Lists script.start.files)
    (allowed : script.Allows request) (answer : receiver.Answer request reply after) :
    Responds script before request reply after := by
  cases answer with
  | cancelled => exact .failed (phase_cancel conforms.going _) (by simp)
  | refused ended => rw [conforms.going] at ended; cases ended
  | failed going ran => exact .failed (phase_fail going ran _) (by simp [Reply.ofError])
  | performed going ran =>
      cases allowed with
      | step planned permitted =>
          cases permitted with
          | announce =>
              obtain ⟨conforming, rfl⟩ := conforms.announce planned ran
              exact .continued rfl conforming (by simp)
          | transfer member made =>
              have replied := Receiving.transfer_reply ran
              exact .continued rfl (conforms.transfer planned member made ran) (by simp [replied])
          | filesComplete =>
              obtain ⟨conforming, rfl⟩ := conforms.filesComplete planned ran
              exact .continued rfl conforming (by simp)
          | replay member =>
              obtain ⟨conforming, checkpoint, rfl⟩ := conforms.replay ran
              exact .continued rfl conforming (by simp)
          | finalize whole =>
              obtain ⟨fulfilled, rfl⟩ := conforms.finalize asked planned ran
              exact .finished planned fulfilled

end Receiver

end ShardSync.Recovery
