import ShardSync.Proofs.Recovery.Agreement

/-!
# What a finished recovery leaves on the target

When a recovery is done the target lists the files that the source lists. Whatever
was sent holds the source's bytes, however its chunks came, and whatever was there
already has kept its own. Temporary files of others stay, even if they bear the
number of the recovery: only those that it has made itself are gone.
-/

set_option autoImplicit false

namespace ShardSync.Recovery

/-- What a recovery makes of the files of a target. The target held the files in
`present` before. -/
structure Mirrors (source : Store) (present files : List FileMetadata) (recovery : Int64)
    (before after : Store) : Prop where
  offered : source.liveFiles = .ok files
  listed : after.liveFiles = .ok files
  transferred : ∀ file ∈ files, file ∉ present → ∃ original content,
    source.live file.name = some original ∧ after.live file.name = some content ∧
    content.toBytes = original.toBytes
  kept : ∀ file ∈ files, file ∈ present → after.live file.name = before.live file.name
  gone : ∀ name, (∀ file ∈ files, file.name ≠ name) → after.live name = none
  temporary : ∀ name, Store.isTempOf recovery name = true → after.files[name]? =
    if ∃ file ∈ files, file ∉ present ∧ Store.tempName recovery file.name = name then none
    else before.files[name]?

namespace Inventory

variable {files present : List FileMetadata} {file : FileMetadata}

theorem mem_toSend_diff :
    file ∈ (diff files present).toSend ↔ file ∈ files ∧ file ∉ present := by
  simp [diff]

theorem mem_alreadyPresent_diff :
    file ∈ (diff files present).alreadyPresent ↔ file ∈ files ∧ file ∈ present := by
  simp [diff]

/-- Every file of the source is sent, or is there already. -/
theorem mem_diff :
    file ∈ (diff files present).toSend ++ (diff files present).alreadyPresent ↔ file ∈ files := by
  rw [List.mem_append, mem_toSend_diff, mem_alreadyPresent_diff, ← and_or_left]
  exact and_iff_left (Classical.em _).symm

end Inventory

namespace Script

variable {script : Script} {agenda : Agenda} {before after : Store} {progress : Progress}

/-- What the source lists is whole if a length is not too large to be told. -/
theorem take_octets {name : String} {content : Content}
    (there : script.source.store.files[name]? = some content)
    (bounded : content.length < UInt64.size) :
    (script.octets name).take (FileMetadata.ofContent name content).length.toNat =
      content.toBytes := by
  have whole : (FileMetadata.ofContent name content).length.toNat = content.toBytes.length := by
    rw [Content.length_toBytes]
    exact UInt64.toNat_ofNat_of_lt bounded
  rw [octets, there, whole]
  exact List.take_length

/-- The target lists what the source lists. -/
theorem Fulfilled.lists {files : List FileMetadata}
    (fulfilled : script.Fulfilled agenda before after progress)
    (planned : script.agenda? = some agenda) (asked : before.Lists script.start.files)
    (lists : script.source.store.Lists files)
    (inventory : agenda.inventory = .diff files script.start.files) : after.Lists files := by
  have told {file : FileMetadata} :
      file ∈ agenda.inventory.toSend ++ agenda.inventory.alreadyPresent ↔ file ∈ files := by
    rw [inventory, Inventory.mem_diff]
  refine lists.congr fun name => ?_
  by_cases listed : ∃ file ∈ files, file.name = name
  · obtain ⟨file, member, rfl⟩ := listed
    obtain ⟨content, found, described⟩ := fulfilled.described planned asked (told.mpr member)
    obtain ⟨original, there, same⟩ := lists.mem_iff.mp member
    rw [found, there, Option.map_some, Option.map_some, described, ← same]
  · have unlisted : ∀ file ∈ files, file.name ≠ name := fun file member same =>
      listed ⟨file, member, same⟩
    rw [lists.live_eq_none unlisted, fulfilled.others name]
    · exact fun file member => unlisted file (told.mp (List.mem_append_left _ member))
    · exact fun file member => unlisted file (told.mp (List.mem_append_right _ member))

theorem Fulfilled.mirrors (fulfilled : script.Fulfilled agenda before after progress)
    (planned : script.agenda? = some agenda) (asked : before.Lists script.start.files)
    (bounded : ∀ (name : String) (content : Content),
      script.source.store.files[name]? = some content → content.length < UInt64.size) :
    ∃ files, Mirrors script.source.store script.start.files files script.start.recovery
      before after := by
  obtain ⟨files, _, lists, _, _, plan⟩ := planned_cases planned
  have listed := fulfilled.lists planned asked lists (by rw [plan])
  obtain ⟨_, _, _, sent, kept, _, temps⟩ := fulfilled
  rw [plan] at sent kept temps
  simp only [Inventory.mem_toSend_diff, Inventory.mem_alreadyPresent_diff, and_imp] at sent kept
  refine ⟨files, Store.liveFiles_eq_ok_iff.mpr lists, Store.liveFiles_eq_ok_iff.mpr listed,
    ?transferred, kept, ?gone, ?temporary⟩
  case transferred =>
    intro file member absent
    obtain ⟨original, there, same⟩ := lists.mem_iff.mp member
    obtain ⟨content, found, _, bytes⟩ := sent file member absent
    have stored := Store.files_of_live there
    refine ⟨original, content, there, found, ?_⟩
    rw [bytes]
    conv_lhs => rw [same]
    exact take_octets stored (bounded _ _ stored)
  case gone => exact fun name unlisted => listed.live_eq_none unlisted
  case temporary =>
    intro name own
    rw [temps name (Store.isTemp_of_isTempOf own)]
    refine if_congr ?_ rfl rfl
    simp only [List.mem_map, Inventory.mem_toSend_diff, and_assoc]

end Script

namespace Dialogue

/-- However the messages of a recovery pass, and however often, the session does not
change the source's files; and a recovery that is done has made the target's equal
to them. -/
theorem parity {service started : Service} {shard : ShardId} {node : NodeId} {script : Script}
    (asked : service.startRecovery shard node = (.ok script.start, started))
    (bounded : ∀ (name : String) (content : Content),
      script.source.store.files[name]? = some content → content.length < UInt64.size)
    (occurrences : List Occurrence) :
    let dialogue := (opened script started).run occurrences
    dialogue.sender.source.store.files = script.source.store.files ∧
    ∀ progress, dialogue.service.progressOf shard script.start.recovery = some progress →
      progress.phase = .done →
      ∃ files, Mirrors script.source.store script.start.files files script.start.recovery
        (started.storeOf shard) (dialogue.service.storeOf shard) := by
  dsimp only
  obtain ⟨rfl, lists, place, stands⟩ := Service.stands_started asked
  have sustains := (Sustains.opened stands).run lists occurrences
  refine ⟨congrArg Mandate.files sustains.fits.serves, fun progress found done => ?_⟩
  obtain ⟨ended, agenda, planned⟩ := sustains.stands.ended_of_done found done
  obtain ⟨_, _, fulfilled⟩ := sustains.stands.fulfilled planned ended
  exact fulfilled.mirrors planned lists bounded

/-- A store in which a recovery of an earlier process, with the same number, has left a file
behind. -/
def littered : Store :=
  { files := (∅ : Std.ExtTreeMap String Content).insert "recovery.77.old" (.ofBytes [0x78]) }

theorem parity_littered :
    ∃ files, Mirrors (copying 76 default).source.store [] files 77
      ((recovering 76 default littered).storeOf default)
      ((exchanged 76 default littered 5).service.storeOf default) := by
  have asked : (hosting 76 default littered).startRecovery default Watched.receivingNode =
      (.ok (copying 76 default).start, recovering 76 default littered) := by
    refine Prod.ext ?_ rfl
    decide +kernel
  have bounded (name : String) (content : Content)
      (there : (copying 76 default).source.store.files[name]? = some content) :
      content.length < UInt64.size := by
    rw [copying, Std.ExtTreeMap.getElem?_insert] at there
    split at there
    · cases there
      decide
    · simp at there
  have done : ((exchanged 76 default littered 5).service.progressOf default 77).map (·.phase) =
      some .done := by
    rw [exchanged_eq]
    decide +kernel
  obtain ⟨progress, found, done⟩ := Option.map_eq_some_iff.mp done
  exact (parity asked bounded (alternating 5)).2 progress found done

/-- The recovery is done, and what had its number before is still there. -/
theorem littered_remains :
    ((exchanged 76 default littered 5).service.progressOf default 77).map (·.phase) = some .done ∧
      Store.isTempOf 77 "recovery.77.old" = true ∧
      ((exchanged 76 default littered 5).service.storeOf default).files["recovery.77.old"]? =
        some (.ofBytes [0x78]) := by
  rw [exchanged_eq]
  decide +kernel

end Dialogue

end ShardSync.Recovery
