import ShardSync.Proofs.Recovery.Accounting
import ShardSync.Proofs.Recovery.Confinement
import ShardSync.Proofs.Recovery.Parity

/-!
# Inventories that are accepted

The source divides its files by what the target lists, and the target checks what it is told
against its own store. As long as that store has not changed, there is nothing to refuse:
the target makes a blank file for every file that is to be sent, and counts what the source
has counted.
-/

set_option autoImplicit false

namespace ShardSync.Recovery

/-- Every file goes to one of the two parts, according to whether an equal one is listed,
and keeps its place among the others. -/
structure Inventory.Divides (inventory : Inventory) (files listed : List FileMetadata) :
    Prop where
  parts : (inventory.toSend ++ inventory.alreadyPresent).Perm files
  apart : ∀ file ∈ files, file ∈ inventory.toSend ↔ file ∉ inventory.alreadyPresent
  sentInOrder : inventory.toSend.Sublist files
  presentInOrder : inventory.alreadyPresent.Sublist files
  present_iff : ∀ file ∈ files, file ∈ inventory.alreadyPresent ↔ ∃ other ∈ listed,
    other.name = file.name ∧ other.length = file.length ∧ other.checksum = file.checksum

/-- What a new target of a recovery makes of an inventory that it accepts. -/
structure Target.Stages (target : Target) (inventory : Inventory) (before after : Store) :
    Prop where
  inFiles : target.progress.phase = .files
  awaited : ∀ file ∈ inventory.toSend, target.incoming[file.name]? = some
    { tempName := Store.tempName target.recovery file.name, length := file.length.toNat }
  unawaited : ∀ name ∉ inventory.toSend.map (·.name), target.incoming[name]? = none
  blank : ∀ file ∈ inventory.toSend,
    after.files[Store.tempName target.recovery file.name]? = some (.blank file.length.toNat)
  /-- No other file is made or changed. -/
  others : ∀ name, (∀ file ∈ inventory.toSend, Store.tempName target.recovery file.name ≠ name) →
    after.files[name]? = before.files[name]?
  filesTotal : target.progress.filesTotal = inventory.totalFiles
  bytesTotal : target.progress.bytesTotal = inventory.totalBytes
  filesReused : target.progress.filesReused = inventory.alreadyPresent.length
  bytesReused : target.progress.bytesReused = inventory.bytesReused

namespace Inventory

variable {inventory : Inventory} {files listed : List FileMetadata}

theorem divides_diff (files listed : List FileMetadata) :
    (diff files listed).Divides files listed where
  parts := by
    have split := List.filter_append_perm (fun file => !listed.contains file) files
    simpa only [diff, Bool.not_not] using split
  apart file member := by
    rw [mem_toSend_diff, mem_alreadyPresent_diff]
    simp [member]
  sentInOrder := List.filter_sublist
  presentInOrder := List.filter_sublist
  present_iff file member := by
    rw [mem_alreadyPresent_diff, and_iff_right member]
    constructor
    · intro held
      exact ⟨file, held, rfl, rfl, rfl⟩
    · rintro ⟨⟨name, length, checksum⟩, held, rfl, rfl, rfl⟩
      exact held

theorem Divides.mem_iff (divides : inventory.Divides files listed) {file : FileMetadata} :
    file ∈ inventory.toSend ∨ file ∈ inventory.alreadyPresent ↔ file ∈ files := by
  rw [← List.mem_append]
  exact divides.parts.mem_iff

theorem Divides.mem_listed (divides : inventory.Divides files listed) {file : FileMetadata}
    (member : file ∈ inventory.alreadyPresent) : file ∈ listed := by
  obtain ⟨other, held, name, length, checksum⟩ :=
    (divides.present_iff file (divides.mem_iff.mp (.inr member))).mp member
  have same : other = file := by
    cases other
    cases file
    simp_all
  exact same ▸ held

theorem Divides.nodup (divides : inventory.Divides files listed)
    (distinct : (files.map (·.name)).Nodup) :
    (inventory.toSend.map (·.name) ++ inventory.alreadyPresent.map (·.name)).Nodup := by
  rw [← List.map_append]
  exact (divides.parts.map _).nodup_iff.mpr distinct

theorem Divides.totalBytes_eq (divides : inventory.Divides files listed) :
    inventory.totalBytes = FileMetadata.totalLength files := by
  have sums := ((divides.parts.map (·.length)).map (·.toNat)).sum_eq
  rw [List.map_append, List.map_append, List.sum_append] at sums
  rw [totalBytes, bytesToSend, bytesReused, ← sum_lengths, ← sum_lengths, ← sum_lengths]
  exact sums

end Inventory

namespace Announcement

theorem checkNames_of_nodup {seen names : List String} (distinct : names.Nodup)
    (admissible : ∀ name ∈ names, Store.isTemp name = false ∧ name ∉ seen) :
    checkNames seen names = .ok () := by
  induction names generalizing seen with
  | nil => rfl
  | cons name names ih =>
      obtain ⟨new, distinct⟩ := List.nodup_cons.mp distinct
      obtain ⟨⟨permanent, unseen⟩, later⟩ := List.forall_mem_cons.mp admissible
      have passed : ¬ (Store.isTemp name || seen.contains name) = true := by
        simp [permanent, unseen]
      rw [checkNames, if_neg passed]
      refine ih distinct fun other member => ⟨(later other member).1, ?_⟩
      rw [List.mem_cons, not_or]
      exact ⟨fun same => new (same ▸ member), (later other member).2⟩

theorem checkHeld_of_mem {held : List FileMetadata} (distinct : (held.map (·.name)).Nodup)
    {file : FileMetadata} (member : file ∈ held) :
    checkHeld held (file.name, file.length) = .ok () := by
  have found : held.find? (·.name == file.name) = some file := by
    cases search : held.find? (·.name == file.name) with
    | none =>
        have absent := List.find?_eq_none.mp search file member
        simp at absent
    | some other =>
        have same : other.name = file.name := by simpa using List.find?_some search
        rw [List.inj_on_of_nodup_map distinct (List.mem_of_find?_eq_some search) member same]
  simp [checkHeld, found]

/-- What a source that has listed both stores announces passes every check of a target
whose store is still the same. -/
theorem accept_announcement {agenda : Agenda} {store : Store} {files listed : List FileMetadata}
    (lists : store.Lists listed) (divides : agenda.inventory.Divides files listed)
    (distinct : (files.map (·.name)).Nodup)
    (permanent : ∀ file ∈ files, Store.isTemp file.name = false)
    (small : FileMetadata.totalLength files < UInt64.size) :
    ∃ bytes, agenda.announcement.accept store = .ok bytes := by
  have counted : agenda.announcement.checkCounts = .ok () := by
    simp [checkCounts, Agenda.announcement, pure, Except.pure]
  have named : checkNames [] (agenda.announcement.names ++ agenda.announcement.existingNames) =
      .ok () := by
    refine checkNames_of_nodup (divides.nodup distinct) fun name member => ⟨?_, List.not_mem_nil⟩
    rw [Agenda.announcement, ← List.map_append] at member
    obtain ⟨file, told, rfl⟩ := List.mem_map.mp member
    exact permanent file (divides.parts.mem_iff.mp told)
  have held : (agenda.announcement.existingNames.zip agenda.announcement.existingSizes).forM
      (checkHeld listed) = .ok () := by
    rw [Agenda.announcement, List.zip_map']
    refine forM_eq_ok_iff.mpr fun told member => ?_
    obtain ⟨file, there, rfl⟩ := List.mem_map.mp member
    exact checkHeld_of_mem lists.nodup (divides.mem_listed there)
  have total : agenda.inventory.bytesToSend + agenda.inventory.bytesReused < UInt64.size :=
    divides.totalBytes_eq.trans_lt small
  have sent : totalSize "file sizes" agenda.announcement.sizes =
      .ok agenda.inventory.bytesToSend :=
    totalSize_eq_ok_iff.mpr ⟨(sum_lengths _).symm, by omega⟩
  have reused : totalSize "existing file sizes" agenda.announcement.existingSizes =
      .ok agenda.inventory.bytesReused :=
    totalSize_eq_ok_iff.mpr ⟨(sum_lengths _).symm, by omega⟩
  unfold accept
  rw [counted, named, Store.liveFiles_eq_ok_iff.mpr lists]
  simp only [bind, Except.bind, Except.mapError, held, sent, reused]
  rw [if_neg (Nat.not_le.mpr total)]
  exact ⟨_, rfl⟩

end Announcement

namespace Receiving

/-- Whether a file of this name and length can be made. -/
def IsStageable (file : String × UInt64) : Prop :=
  Store.isValidName file.1 = true ∧ file.2.toNat ≤ Store.maxLength

theorem start_stage {file : String × UInt64} (stageable : IsStageable file)
    (receiver : Receiver) : ∃ final, (stage file).start receiver = (.ok (), final) := by
  have valid := Store.isValidName_tempName receiver.target.recovery stageable.1
  obtain ⟨after, made⟩ : ∃ after, receiver.copy.store.createSized
      (Store.tempName receiver.target.recovery file.1) file.2.toNat = (.ok (), after) :=
    ⟨_, Store.createSized_eq_ok_iff.mpr ⟨valid, stageable.2, rfl⟩⟩
  unfold stage
  rw [start_get_bind, start_bind, start_throughStore, made]
  exact ⟨_, rfl⟩

theorem start_forM_stage {files : List (String × UInt64)}
    (stageable : ∀ file ∈ files, IsStageable file) (receiver : Receiver) :
    ∃ final, (files.forM stage).start receiver = (.ok (), final) := by
  induction files generalizing receiver with
  | nil => exact ⟨receiver, rfl⟩
  | cons file files ih =>
      rw [List.forall_mem_cons] at stageable
      obtain ⟨between, first⟩ := start_stage stageable.1 receiver
      obtain ⟨final, later⟩ := ih stageable.2 between
      rw [List.forM_eq_forM, List.forM_cons, start_bind_of_ok first]
      exact ⟨final, later⟩

/-- A new target takes an announcement that passes its checks. -/
theorem start_announce {announcement : Announcement} {receiver : Receiver}
    {bytes : AnnouncedBytes} (begins : receiver.phase = .init)
    (accepted : announcement.accept receiver.copy.store = .ok bytes)
    (stageable : ∀ file ∈ announcement.names.zip announcement.sizes, IsStageable file)
    (totalOps : UInt32) :
    ∃ final, (announce announcement totalOps).start receiver = (.ok .ack, final) := by
  obtain ⟨between, staged⟩ := start_forM_stage stageable receiver
  have kept : Keeps besidesFiles ((announcement.names.zip announcement.sizes).forM stage) :=
    .forM fun file _ => besidesFiles_stage file
  have still : between.target.progress.phase = .init :=
    ((kept.part (·.target.progress.phase)).of_ok staged).trans begins
  have expected : receiver.target.progress.expect .init = .ok () := if_pos begins
  unfold announce
  rw [start_get_bind, start_bind, start_check, expected]
  dsimp only
  rw [start_bind, start_check, accepted]
  dsimp only
  rw [start_bind_of_ok staged, start_bind_of_ok (start_modifyTarget _ _),
    start_bind_of_ok (start_modifyProgress _ _),
    start_bind_of_ok (start_transition (by exact still ▸ rfl)),
    start_bind_of_ok (start_log _ _ _)]
  exact ⟨_, rfl⟩

/-- A target that has taken the announcement awaits what is to be sent, and nothing else. -/
theorem stages_of_announce {agenda : Agenda} {receiver final : Receiver} {reply : Reply}
    (fresh : receiver.target.incoming = ∅)
    (ran : (announce agenda.announcement agenda.totalOps).start receiver = (.ok reply, final)) :
    final.target.Stages agenda.inventory receiver.copy.store final.copy.store := by
  have totals := totals_announce ran
  let own (name : String) : Prop :=
    ∃ file ∈ agenda.inventory.toSend, Store.tempName receiver.target.recovery file.name = name
  have named : ∀ name ∈ agenda.announcement.names,
      own (Store.tempName receiver.target.recovery name) := by
    intro name member
    obtain ⟨file, told, rfl⟩ := List.mem_map.mp member
    exact ⟨file, told, rfl⟩
  have confined := confined_announce named agenda.totalOps receiver ⟨rfl, by simp [fresh]⟩
  rw [ran] at confined
  obtain ⟨owns, changes⟩ := confined
  obtain ⟨-, -, bytes, between, accepted, staged, copy, target⟩ := announce_ok ran
  have names := (Announcement.files_of_accept accepted).1
  obtain ⟨blank, others⟩ := forM_stage_blank (Announcement.files_of_accept accepted).2 staged
  have entered (file : FileMetadata) (member : file ∈ agenda.inventory.toSend) :=
    blank (file.name, file.length) (by
      rw [Agenda.announcement, List.zip_map']
      exact List.mem_map_of_mem member)
  simp only [Progress.totals, Agenda.totals, Totals.mk.injEq] at totals
  obtain ⟨filesTotal, filesReused, bytesTotal, bytesReused, -⟩ := totals
  have incoming : final.target.incoming = between.target.incoming := by rw [target]
  constructor
  case inFiles => rw [target]
  case awaited =>
    intro file member
    rw [incoming, owns.numbered]
    exact (entered file member).1
  case unawaited =>
    intro name unsent
    rw [incoming, (others name (by rwa [names])).1, fresh]
    exact Std.ExtTreeMap.getElem?_empty
  case blank =>
    intro file member
    rw [copy, owns.numbered]
    exact (entered file member).2
  case others =>
    intro name elsewhere
    apply changes.elsewhere
    rintro ⟨file, member, same⟩
    rw [owns.numbered] at elsewhere
    exact elsewhere file member same
  case filesTotal => exact filesTotal
  case bytesTotal => exact bytesTotal
  case filesReused => exact filesReused
  case bytesReused => exact bytesReused

end Receiving

namespace Script

variable {script : Script} {agenda : Agenda} {files : List FileMetadata}

theorem exists_agenda (listed : script.source.store.liveFiles = .ok files)
    (few : (script.source.translog.range script.start.startSeqNo
      script.source.translog.maxSeqNo).length < 2 ^ 31) :
    ∃ agenda, script.agenda? = some agenda := by
  have countable := Nat.lt_trans few (by decide : 2 ^ 31 < UInt32.size)
  rw [agenda?, listed]
  have planned : ∃ agenda, Sending.plan script.opened files = .ok agenda :=
    ⟨_, if_pos countable⟩
  obtain ⟨agenda, planned⟩ := planned
  exact ⟨agenda, congrArg Except.toOption planned⟩

/-- A session whose turn comes asks the target to take its inventory, and nothing else. -/
theorem outstanding_launch (planned : script.agenda? = some agenda) :
    ∃ timeout, script.opened.launch.delivery.outstanding = [{
      request := .step 0 script.start.recovery script.start.shard
        (.announce agenda.announcement agenda.totalOps)
      timeout }] := by
  obtain ⟨files, listed, plan⟩ := Option.bind_eq_some_iff.mp planned
  obtain ⟨pinned, taken⟩ : ∃ pinned, script.source.store.takeSnapshot = .ok (⟨files⟩, pinned) :=
    ⟨_, Store.takeSnapshot_eq_ok_iff.mpr ⟨eq_ok_of_toOption listed, rfl⟩⟩
  have launched : script.opened.launch = _ :=
    Sender.launch_of_planned rfl rfl taken (eq_ok_of_toOption plan)
  rw [launched]
  exact ⟨_, rfl⟩

end Script

/-- A new target takes what a session announces of its source, if the target's store still
lists what the session was told. -/
theorem Receiver.handle_announcement {agenda : Agenda} {source present : Store}
    {files listed : List FileMetadata} (offered : source.Lists files) (held : present.Lists listed)
    (divides : agenda.inventory.Divides files listed)
    (fits : ∀ file ∈ files, file.length.toNat ≤ Store.maxLength)
    (small : FileMetadata.totalLength files < UInt64.size) {receiver : Receiver}
    (begins : receiver.phase = .init) (fresh : receiver.target.incoming = ∅)
    (unchanged : receiver.copy.store = present) (number asked : Int64) (part : ShardId) :
    let answer :=
      receiver.handle (.step number asked part (.announce agenda.announcement agenda.totalOps))
    answer.1 = .ack ∧
      answer.2.target.Stages agenda.inventory present answer.2.copy.store := by
  have permanent (file : FileMetadata) (member : file ∈ files) :
      Store.isTemp file.name = false := by
    obtain ⟨content, there, -⟩ := (offered.described file member).2
    by_contra temp
    rw [Store.live_of_isTemp (Bool.eq_true_of_not_eq_false temp)] at there
    cases there
  have stageable : ∀ file ∈ agenda.announcement.names.zip agenda.announcement.sizes,
      Receiving.IsStageable file := by
    intro file member
    rw [Agenda.announcement, List.zip_map'] at member
    obtain ⟨original, told, rfl⟩ := List.mem_map.mp member
    have source : original ∈ files := divides.mem_iff.mp (.inl told)
    exact ⟨(offered.described original source).1, fits original source⟩
  obtain ⟨bytes, accepted⟩ :=
    Announcement.accept_announcement held divides offered.nodup permanent small
  obtain ⟨final, ran⟩ :=
    Receiving.start_announce begins (unchanged ▸ accepted) stageable agenda.totalOps
  have going : receiver.isOver = false := isOver_of_phase begins
  have stages := Receiving.stages_of_announce fresh ran
  rw [unchanged] at stages
  have performed : (Command.announce agenda.announcement agenda.totalOps).perform.start receiver =
      (.ok .ack, final) := ran
  rw [handle_of_ok going performed]
  exact ⟨rfl, stages⟩

/-- What a session announces of the files of its source is taken by a new target whose
store lists what the session was told. -/
theorem inventory_accepted (source present : Store)
    (offered : ∀ name ∈ source.liveNames, Store.isValidName name = true)
    (held : ∀ name ∈ present.liveNames, Store.isValidName name = true)
    (fits : ∀ (name : String) (content : Content), source.live name = some content →
      content.length ≤ Store.maxLength)
    (small : ∀ files, source.liveFiles = .ok files →
      FileMetadata.totalLength files < UInt64.size) :
    ∃ files listed, source.liveFiles = .ok files ∧ present.liveFiles = .ok listed ∧
      (Inventory.diff files listed).Divides files listed ∧
      ∀ script : Script, script.source.store = source → script.start.files = listed →
        (script.source.translog.range script.start.startSeqNo
          script.source.translog.maxSeqNo).length < 2 ^ 31 →
        ∃ (agenda : Agenda) (timeout : Nat), agenda.inventory = .diff files listed ∧
          script.opened.launch.delivery.outstanding = [{
            request := .step 0 script.start.recovery script.start.shard
              (.announce agenda.announcement agenda.totalOps)
            timeout }] ∧
          ∀ (recovery : Int64) (shard : ShardId) (engine : Engine) (journal : Log.Journal),
            let fresh : Receiver :=
              { target := { recovery, shard }, copy := { store := present, engine }, journal }
            let answer := fresh.handle (.step 0 script.start.recovery script.start.shard
              (.announce agenda.announcement agenda.totalOps))
            answer.1 = .ack ∧
              answer.2.target.Stages agenda.inventory present answer.2.copy.store := by
  obtain ⟨files, lists⟩ := Store.exists_lists offered
  obtain ⟨listed, listsToo⟩ := Store.exists_lists held
  have found := Store.liveFiles_eq_ok_iff.mpr lists
  have divides := Inventory.divides_diff files listed
  have short (file : FileMetadata) (member : file ∈ files) :
      file.length.toNat ≤ Store.maxLength := by
    obtain ⟨content, there, same⟩ := (lists.described file member).2
    rw [same]
    exact Nat.le_trans (Nat.mod_le _ _) (fits file.name content there)
  refine ⟨files, listed, found, Store.liveFiles_eq_ok_iff.mpr listsToo, divides, ?_⟩
  rintro script rfl rfl few
  obtain ⟨agenda, planned⟩ := Script.exists_agenda found few
  obtain ⟨timeout, outstanding⟩ := Script.outstanding_launch planned
  obtain ⟨others, operations, again, -, -, same⟩ := Script.planned_cases planned
  cases Except.ok.inj (found.symm.trans (Store.liveFiles_eq_ok_iff.mpr again))
  have inventory : agenda.inventory = .diff files script.start.files := by rw [same]
  refine ⟨agenda, timeout, inventory, outstanding, fun recovery shard engine journal => ?_⟩
  exact Receiver.handle_announcement lists listsToo (inventory ▸ divides) short (small files found)
    rfl rfl rfl 0 script.start.recovery script.start.shard

/-- A store of two files, the first of which has the given content. -/
def holdingTwo (first : Bytes) : Store where
  files := (∅ : Std.ExtTreeMap String Content)
    |>.insert "a" (.ofBytes first)
    |>.insert "b" (.ofBytes [5])

/-- A target that holds one of two files as the source has it asks for them. -/
def offeringTwo : Script where
  start := {
    recovery := 77, shard := Receiver.obstructedShard, source := Watched.receivingNode
    target := Watched.receivingNode
    files := [.ofContent "a" (.ofBytes [9]), .ofContent "b" (.ofBytes [5])], startSeqNo := 0 }
  settings := {}
  source := { store := holdingTwo [1, 2] }

theorem inventory_accepted_partly :
    ∃ (agenda : Agenda) (timeout : Nat),
      agenda.inventory = {
        toSend := [.ofContent "a" (.ofBytes [1, 2])]
        alreadyPresent := [.ofContent "b" (.ofBytes [5])] } ∧
      offeringTwo.opened.launch.delivery.outstanding = [{
        request := .step 0 77 Receiver.obstructedShard
          (.announce agenda.announcement agenda.totalOps)
        timeout }] ∧
      let fresh : Receiver :=
        { target := { recovery := 77, shard := Receiver.obstructedShard }
          copy := { store := holdingTwo [9], engine := {} }, journal := {} }
      let answer := fresh.handle (.step 0 77 Receiver.obstructedShard
        (.announce agenda.announcement agenda.totalOps))
      answer.1 = .ack ∧
        answer.2.target.Stages agenda.inventory (holdingTwo [9]) answer.2.copy.store := by
  have short : ∀ name ∈ (holdingTwo [1, 2]).liveNames,
      ∀ content ∈ (holdingTwo [1, 2]).live name, content.length ≤ Store.maxLength := by
    decide +kernel
  have offered : (holdingTwo [1, 2]).liveFiles =
      .ok [.ofContent "a" (.ofBytes [1, 2]), .ofContent "b" (.ofBytes [5])] := by
    decide +kernel
  have held : (holdingTwo [9]).liveFiles = .ok offeringTwo.start.files := by decide +kernel
  obtain ⟨files, listed, source, present, -, accepted⟩ :=
    inventory_accepted (holdingTwo [1, 2]) (holdingTwo [9]) (by decide +kernel)
      (by decide +kernel)
      (fun name content there =>
        short name (Store.mem_liveNames_iff.mpr (by rw [there]; rfl)) content there)
      (fun files found => by
        cases Except.ok.inj (offered.symm.trans found)
        decide +kernel)
  cases Except.ok.inj (offered.symm.trans source)
  cases Except.ok.inj (held.symm.trans present)
  obtain ⟨agenda, timeout, inventory, sent, taken⟩ := accepted offeringTwo rfl rfl (by decide)
  refine ⟨agenda, timeout, ?_, sent, taken 77 Receiver.obstructedShard {} {}⟩
  rw [inventory]
  decide +kernel

end ShardSync.Recovery
