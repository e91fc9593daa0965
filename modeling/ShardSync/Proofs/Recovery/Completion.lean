import ShardSync.Proofs.Recovery.Conformance
import ShardSync.Proofs.Recovery.Counters
import ShardSync.Proofs.Recovery.Slices
import ShardSync.Proofs.Recovery.Transfers

/-!
# Files whose chunks are all sent

A sender that knows the files sends true slices of them, with the right metadata and
checksums. Such chunks are refused for one reason only: the lengths of the written ones
have added up to that of the file, and the file is not there. So it can be told from the
slices whether all chunks are taken and the files completed.
-/

set_option autoImplicit false

namespace ShardSync.Recovery

namespace Chunk

def slice (chunk : Chunk) : Slice := ⟨chunk.position.toNat, chunk.content.length⟩

/-- A chunk that brings a slice of its file, whose content is known. -/
structure IsTrue (truth : String → Bytes) (chunk : Chunk) : Prop where
  described : chunk.file = .ofContent chunk.file.name (.ofBytes (truth chunk.file.name))
  within : chunk.slice.position + chunk.slice.length ≤ (truth chunk.file.name).length
  content : chunk.content = (truth chunk.file.name).slice chunk.slice.position chunk.slice.length
  checksum : chunk.checksum = ShardSync.checksum chunk.content

end Chunk

/-- The slices of one file that requests bring. -/
def slicesOf (name : String) (requests : List Request) : List Slice :=
  requests.filterMap fun request =>
    (request.chunk?.filter fun chunk => chunk.file.name = name).map Chunk.slice

/-- All chunks are acknowledged. A file is verified and staged as it is as soon as there is
a chunk and every octet has been in one, and is counted once. -/
structure Completes (truth : String → Bytes) (names : List String) (receiver : Receiver)
    (requests : List Request) : Prop where
  acknowledged : ∀ earlier request chunk, earlier ++ [request] <+: requests →
    request.chunk? = some chunk →
    ((receiver.handleAll earlier).2.handle request).1 = .chunkAck chunk.position
  assembled : ∀ earlier, earlier <+: requests → ∀ name ∈ names,
    Slice.Cover (truth name).length (slicesOf name earlier) →
    let reached := (receiver.handleAll earlier).2
    ∃ incoming content, reached.target.incoming[name]? = some incoming ∧
      incoming.isVerified = true ∧
      reached.copy.store.files[incoming.tempName]? = some content ∧
      content.toBytes = truth name
  counted : ∀ earlier, earlier <+: requests →
    (receiver.handleAll earlier).2.target.progress.filesSent =
      (receiver.handleAll earlier).2.target.verifiedFiles

/-- A file that is not verified yet, and what has been written of it. -/
structure Gathered (name : String) (source : Bytes) (slices : List Slice) (incoming : Incoming)
    (content : Content) : Prop where
  pending : incoming.isVerified = false
  length : incoming.length = source.length
  described : ∀ known ∈ incoming.file?, known = .ofContent name (.ofBytes source)
  positions : ∀ position, position ∈ incoming.positions ↔
    ∃ slice ∈ slices, slice.position = position
  received : incoming.received = Slice.total slices
  octets : content.toBytes = Slice.written source slices

/-- A verified file, and the slices that it was verified after. -/
structure Assembled (source : Bytes) (slices : List Slice) (incoming : Incoming)
    (content : Content) : Prop where
  verified : incoming.isVerified = true
  complete : ∃ earlier, earlier <+: slices ∧ Slice.IsFull source.length earlier ∧
    content.toBytes = Slice.written source earlier ∧ checksum content.toBytes = checksum source

section

variable {truth : String → Bytes} {names : List String} {requests : List Request}
  {request : Request} {receiver final : Receiver} {chunk : Chunk} {name : String}
  {source : Bytes} {slices : List Slice} {incoming entry : Incoming} {content : Content}
  {before after : Store}

theorem slicesOf_concat (asked : request.chunk? = some chunk) (name : String) :
    slicesOf name (requests ++ [request]) =
      slicesOf name requests ++ if chunk.file.name = name then [chunk.slice] else [] := by
  unfold slicesOf
  rw [List.filterMap_append]
  by_cases same : chunk.file.name = name <;> simp [asked, same, Option.filter]

namespace Gathered

theorem blank (name : String) (source : Bytes) (tempName : String) :
    Gathered name source [] { tempName, length := source.length } (.blank source.length) where
  pending := rfl
  length := rfl
  described known member := by cases member
  positions position := by simp
  received := rfl
  octets := by rw [Content.toBytes_blank, Slice.written_nil]

theorem isComplete_iff (gathered : Gathered name source slices incoming content) :
    incoming.isComplete = true ↔ Slice.IsFull source.length slices := by
  have begun : incoming.positions.isEmpty = false ↔ slices ≠ [] := by
    rw [Std.ExtTreeSet.isEmpty_eq_false_iff, not_iff_not,
      Std.ExtTreeSet.eq_empty_iff_forall_not_mem]
    simp only [gathered.positions, List.eq_nil_iff_forall_not_mem]
    exact ⟨fun none slice member => none _ ⟨slice, member, rfl⟩,
      fun none position ⟨slice, member, _⟩ => none slice member⟩
  rw [Incoming.isComplete, Bool.and_eq_true, beq_iff_eq, Bool.not_eq_true', begun,
    gathered.received, gathered.length, and_comm]
  rfl

/-- A true chunk is described as its file is. -/
theorem describe (gathered : Gathered name source slices incoming content)
    (small : source.length < UInt64.size) :
    incoming.describe (.ofContent name (.ofBytes source)) =
        .ok { incoming with file? := some (.ofContent name (.ofBytes source)) } ∧
      Gathered name source slices
        { incoming with file? := some (.ofContent name (.ofBytes source)) } content := by
  have length : (FileMetadata.ofContent name (.ofBytes source)).length.toNat = incoming.length := by
    rw [gathered.length, FileMetadata.ofContent, ← Content.length_toBytes, Content.toBytes_ofBytes]
    exact UInt64.toNat_ofNat_of_lt small
  constructor
  · rw [Incoming.describe, if_neg (not_not_intro length)]
    cases known : incoming.file? with
    | none => rfl
    | some file =>
        rw [gathered.described file known]
        dsimp only
        rw [if_pos rfl, ← gathered.described file known, ← known]
  · exact ⟨gathered.pending, gathered.length, fun known member => by cases member; rfl,
      gathered.positions, gathered.received, gathered.octets⟩

/-- A true slice is written, unless one that begins where it does has been. -/
theorem enters (gathered : Gathered chunk.file.name source slices incoming content)
    (there : before.files[incoming.tempName]? = some content)
    (within : chunk.slice.position + chunk.slice.length ≤ source.length)
    (brought : chunk.content = source.slice chunk.slice.position chunk.slice.length)
    (enters : Enters chunk incoming before entry after) :
    entry.tempName = incoming.tempName ∧
      (∀ name, name ≠ incoming.tempName → after.files[name]? = before.files[name]?) ∧
      ∃ content, after.files[incoming.tempName]? = some content ∧
        Gathered chunk.file.name source (slices ++ [chunk.slice]) entry content := by
  cases enters with
  | again member =>
      have known : ∃ other ∈ slices, other.position = chunk.slice.position :=
        (gathered.positions _).mp member
      refine ⟨rfl, fun _ _ => rfl, content, there, gathered.pending, gathered.length,
        gathered.described, fun position => ?_, ?_, ?_⟩
      · simp only [gathered.positions, List.mem_append, List.mem_singleton, or_and_right,
          exists_or, exists_eq_left]
        refine ⟨.inl, fun either => either.elim id ?_⟩
        rintro rfl
        exact known
      · rw [gathered.received, Slice.total_concat, if_pos known, Nat.add_zero]
      · rw [gathered.octets, Slice.written, Slice.written, Slice.firsts_concat, if_pos known,
          List.append_nil]
  | fresh new wrote =>
      obtain ⟨found, read, rfl⟩ := Store.writeAt_eq_ok_iff.mp wrote
      obtain rfl := Option.some.inj <| there.symm.trans (Store.content_eq_ok_iff.mp read).2
      have unknown : ¬ ∃ other ∈ slices, other.position = chunk.slice.position := fun known =>
        new ((gathered.positions _).mpr known)
      refine ⟨rfl, fun name other => ?_, _, Std.ExtTreeMap.getElem?_insert_self, gathered.pending,
        gathered.length, gathered.described, fun position => ?_, ?_, ?_⟩
      · have other : compare incoming.tempName name ≠ .eq :=
          fun same => other (Std.LawfulEqOrd.eq_of_compare same).symm
        simp [Std.ExtTreeMap.getElem?_insert, other]
      · simp only [Incoming.take, Std.ExtTreeSet.mem_insert, Std.LawfulEqCmp.compare_eq_iff_eq,
          gathered.positions, List.mem_append, List.mem_singleton, or_and_right, exists_or,
          exists_eq_left]
        exact or_comm
      · rw [Incoming.take, Slice.total_concat, if_neg unknown, ← gathered.received]
        rfl
      · rw [Content.toBytes_overwrite, gathered.octets, brought, Slice.written, Slice.written,
          Slice.firsts_concat, if_neg unknown]
        exact Slice.overwrite_patch within

end Gathered

theorem Assembled.append (assembled : Assembled source slices incoming content)
    (more : List Slice) : Assembled source (slices ++ more) incoming content := by
  obtain ⟨earlier, before, full⟩ := assembled.complete
  exact ⟨assembled.verified, earlier, before.trans (List.prefix_append _ _), full⟩

/-- A file is not verified as long as its slices do not add up. -/
def Progresses (name : String) (source : Bytes) (slices : List Slice) (incoming : Incoming)
    (content : Content) : Prop :=
  Gathered name source slices incoming content ∧
      (∀ earlier, earlier <+: slices → ¬ Slice.IsFull source.length earlier) ∨
    Assembled source slices incoming content

/-- What a receiver that has taken all chunks holds of the announced files. -/
structure Assembling (truth : String → Bytes) (names : List String) (requests : List Request)
    (receiver : Receiver) : Prop where
  inFiles : receiver.phase = .files
  small : ∀ name ∈ names, (truth name).length < UInt64.size
  valid : ∀ name ∈ names,
    Store.isValidName (Store.tempName receiver.target.recovery name) = true
  files : ∀ name ∈ names, ∃ incoming content,
    receiver.target.incoming[name]? = some incoming ∧
    incoming.tempName = Store.tempName receiver.target.recovery name ∧
    receiver.copy.store.files[incoming.tempName]? = some content ∧
    Progresses name (truth name) (slicesOf name requests) incoming content

/-- What is verified has the checksum that its metadata say. -/
theorem checksum_of_verify (there : after.files[entry.tempName]? = some content)
    (checked : after.verify entry.tempName (.ofContent name (.ofBytes source)) = .ok ()) :
    checksum content.toBytes = checksum source := by
  obtain ⟨actual, measured, _, same⟩ := Store.verify_eq_ok_iff.mp checked
  obtain ⟨_, found, known, rfl⟩ := Store.metadata_eq_ok_iff.mp measured
  rw [there, Option.some.injEq] at known
  subst known
  simpa [FileMetadata.ofContent] using same

theorem verify_of_checksum (valid : Store.isValidName entry.tempName = true)
    (there : after.files[entry.tempName]? = some content)
    (length : content.toBytes.length = source.length)
    (same : checksum content.toBytes = checksum source) :
    after.verify entry.tempName (.ofContent name (.ofBytes source)) = .ok () := by
  refine Store.verify_eq_ok_iff.mpr
    ⟨_, Store.metadata_eq_ok_iff.mpr ⟨valid, content, there, rfl⟩, ?_, ?_⟩
  · simp [FileMetadata.ofContent, ← Content.length_toBytes, length]
  · simpa [FileMetadata.ofContent] using same

/-- A slice that is taken leaves its file with what it has brought, and verified as soon
as the slices add up. -/
theorem Gathered.takes
    (gathered : Gathered chunk.file.name (truth chunk.file.name) slices incoming content)
    (lacking : ∀ earlier, earlier <+: slices →
      ¬ Slice.IsFull (truth chunk.file.name).length earlier)
    (isTrue : chunk.IsTrue truth) (small : (truth chunk.file.name).length < UInt64.size)
    (there : before.files[incoming.tempName]? = some content)
    (takes : Takes chunk incoming before entry after) :
    entry.tempName = incoming.tempName ∧
      (∀ name, name ≠ incoming.tempName → after.files[name]? = before.files[name]?) ∧
      ∃ content, after.files[incoming.tempName]? = some content ∧
        Progresses chunk.file.name (truth chunk.file.name) (slices ++ [chunk.slice]) entry
          content := by
  have described := (gathered.describe small).2
  rw [← isTrue.described] at described
  cases takes with
  | ended verified => exact absurd (gathered.pending.symm.trans verified) Bool.false_ne_true
  | going pending enters partly =>
      obtain ⟨named, others, content, found, gathered⟩ :=
        described.enters there isTrue.within isTrue.content enters
      refine ⟨named, others, content, found, .inl ⟨gathered, fun earlier before full => ?_⟩⟩
      rcases List.prefix_concat_iff.mp before with rfl | before
      · exact absurd (partly.symm.trans (gathered.isComplete_iff.mpr full)) Bool.false_ne_true
      · exact lacking earlier before full
  | completed pending enters whole checked =>
      obtain ⟨named, others, content, found, gathered⟩ :=
        described.enters there isTrue.within isTrue.content enters
      rw [isTrue.described] at checked
      exact ⟨named, others, content, found, .inr ⟨rfl, _, List.prefix_refl _,
        gathered.isComplete_iff.mp whole, gathered.octets,
        checksum_of_verify (named ▸ found) checked⟩⟩

/-- A true slice is refused only if the slices add up and the file is not there. -/
theorem Gathered.not_spoils
    (gathered : Gathered chunk.file.name (truth chunk.file.name) slices incoming content)
    (isTrue : chunk.IsTrue truth) (small : (truth chunk.file.name).length < UInt64.size)
    (valid : Store.isValidName incoming.tempName = true)
    (there : before.files[incoming.tempName]? = some content)
    (exact : Slice.IsFull (truth chunk.file.name).length (slices ++ [chunk.slice]) →
      checksum (Slice.written (truth chunk.file.name) (slices ++ [chunk.slice])) =
        checksum (truth chunk.file.name)) : ¬ Spoils chunk incoming before entry after := by
  obtain ⟨describes, described⟩ := gathered.describe small
  rw [← isTrue.described] at describes described
  intro spoils
  cases spoils with
  | undescribed refused => cases describes.symm.trans refused
  | outside known beyond =>
      have within := isTrue.within
      rw [← gathered.length] at within
      exact absurd within (Nat.not_le.mpr beyond)
  | damaged known differs discards => exact differs isTrue.checksum.symm
  | unwritten known refused =>
      cases describes.symm.trans known
      obtain ⟨after, written⟩ : ∃ after, before.writeAt incoming.tempName chunk.position.toNat
          chunk.content = .ok after :=
        ⟨_, Store.writeAt_eq_ok_iff.mpr
          ⟨content, Store.content_eq_ok_iff.mpr ⟨valid, there⟩, rfl⟩⟩
      cases written.symm.trans refused
  | unverified known within enters whole refused discards =>
      cases describes.symm.trans known
      obtain ⟨named, _, content, found, gathered⟩ :=
        described.enters there isTrue.within isTrue.content enters
      have same := exact (gathered.isComplete_iff.mp whole)
      rw [← gathered.octets] at same
      have length : content.toBytes.length = (truth chunk.file.name).length := by
        rw [gathered.octets, Slice.written, Slice.length_patch]
      rw [isTrue.described] at refused
      cases refused.symm.trans (verify_of_checksum (named ▸ valid) (named ▸ found) length same)

namespace Assembling

/-- A true chunk that is taken. -/
theorem transfer {reply : Reply} (assembling : Assembling truth names requests receiver)
    (asked : request.chunk? = some chunk) (isTrue : chunk.IsTrue truth)
    (named : chunk.file.name ∈ names)
    (ran : (Receiving.transfer chunk).start receiver = (.ok reply, final)) :
    Assembling truth names (requests ++ [request]) final := by
  have sameRecovery : final.target.recovery = receiver.target.recovery :=
    ((Receiving.besidesFiles_transfer chunk).part (·.target.recovery)).of_ok ran
  obtain ⟨incoming, entry, found, sets, takes⟩ := Receiving.transfer_takes ran
  obtain ⟨_, content, known, stored, there, progresses⟩ := assembling.files _ named
  cases found.symm.trans known
  have own : entry.tempName = incoming.tempName ∧
      (∀ name, name ≠ incoming.tempName →
        final.copy.store.files[name]? = receiver.copy.store.files[name]?) ∧
      ∃ content, final.copy.store.files[incoming.tempName]? = some content ∧
        Progresses chunk.file.name (truth chunk.file.name)
          (slicesOf chunk.file.name requests ++ [chunk.slice]) entry content := by
    rcases progresses with ⟨gathered, lacking⟩ | assembled
    · exact gathered.takes lacking isTrue (assembling.small _ named) there takes
    · generalize final.copy.store = after at takes ⊢
      cases takes with
      | ended verified => exact ⟨rfl, fun _ _ => rfl, content, there, .inr (assembled.append _)⟩
      | going pending | completed pending =>
          exact absurd (pending.symm.trans assembled.verified) Bool.false_ne_true
  obtain ⟨kept, others, content, written, progresses⟩ := own
  refine ⟨(Receiving.transfer_ok ran).2, assembling.small, ?_, fun name member => ?_⟩
  · rw [sameRecovery]
    exact assembling.valid
  · rw [slicesOf_concat asked, sameRecovery]
    by_cases here : name = chunk.file.name
    · subst here
      rw [if_pos rfl]
      exact ⟨entry, content, sets.1, kept.trans stored, kept ▸ written, progresses⟩
    · obtain ⟨other, content, known, storedToo, there, progresses⟩ := assembling.files _ member
      have apart : other.tempName ≠ incoming.tempName := by
        rw [stored, storedToo]
        exact fun same => here (Store.tempName_injective same)
      rw [if_neg (Ne.symm here), List.append_nil]
      exact ⟨other, content, (sets.2 name here).trans known, storedToo,
        (others _ apart).trans there, progresses⟩

/-- A true chunk is taken, unless the slices of its file add up and it is not there. -/
theorem transfer_of_exact (assembling : Assembling truth names requests receiver)
    (asked : request.chunk? = some chunk) (isTrue : chunk.IsTrue truth)
    (named : chunk.file.name ∈ names)
    (exact : Slice.IsFull (truth chunk.file.name).length
        (slicesOf chunk.file.name (requests ++ [request])) →
      checksum (Slice.written (truth chunk.file.name)
          (slicesOf chunk.file.name (requests ++ [request]))) =
        checksum (truth chunk.file.name)) :
    ∃ final,
      (Receiving.transfer chunk).start receiver = (.ok (.chunkAck chunk.position), final) := by
  obtain ⟨incoming, content, known, stored, there, progresses⟩ := assembling.files _ named
  rw [slicesOf_concat asked, if_pos rfl] at exact
  cases ran : (Receiving.transfer chunk).start receiver with
  | mk outcome final =>
      cases outcome with
      | ok reply => exact ⟨final, by rw [Receiving.transfer_reply ran]⟩
      | error error =>
          exfalso
          rcases Receiving.transfer_spoils ran with ⟨_, elsewhere | unknown⟩ |
            ⟨_, entry, found, pending, _, spoils⟩
          · exact elsewhere assembling.inFiles
          · exact absurd (unknown.symm.trans known) nofun
          · cases found.symm.trans known
            rcases progresses with ⟨gathered, _⟩ | assembled
            · have valid := assembling.valid _ named
              rw [← stored] at valid
              exact gathered.not_spoils isTrue (assembling.small _ named) valid there exact spoils
            · exact absurd (pending.symm.trans assembled.verified) Bool.false_ne_true

end Assembling

end

section Runs

variable {truth : String → Bytes} {names : List String} {requests : List Request}
  {receiver : Receiver}

/-- True chunks of announced files. -/
def AreSlices (truth : String → Bytes) (names : List String) (requests : List Request) : Prop :=
  ∀ request ∈ requests, ∃ chunk, request.chunk? = some chunk ∧ chunk.file.name ∈ names ∧
    chunk.IsTrue truth

namespace Assembling

/-- When all chunks have been taken, all of the files are held that their slices give. -/
theorem of_acknowledged (begun : Assembling truth names [] receiver)
    (slices : AreSlices truth names requests)
    (acknowledged : ∀ earlier request chunk, earlier ++ [request] <+: requests →
      request.chunk? = some chunk →
      ((receiver.handleAll earlier).2.handle request).1 = .chunkAck chunk.position) :
    Assembling truth names requests (receiver.handleAll requests).2 := by
  induction requests using List.reverseRecOn with
  | nil => exact begun
  | append_singleton requests request ih =>
      have assembling := ih (fun other member => slices other (List.mem_append_left _ member))
        fun earlier other chunk before => acknowledged earlier other chunk
          (before.trans (List.prefix_append _ _))
      obtain ⟨chunk, asked, named, isTrue⟩ := slices request (by simp)
      have answered := acknowledged requests request chunk (List.prefix_refl _) asked
      obtain ⟨number, recovery, shard, totalOps, rfl⟩ := Request.exists_of_chunk? asked
      have ran := Receiver.perform_of_handle (Prod.ext answered rfl) nofun
      rw [(Receiver.handleAll_append receiver requests _).2]
      exact assembling.transfer asked isTrue named ran

/-- Chunks are taken as long as their slices add up. -/
theorem acknowledges (begun : Assembling truth names [] receiver)
    (slices : AreSlices truth names requests)
    (addUp : ∀ name ∈ names, Slice.AddUp (truth name) (slicesOf name requests)) :
    ∀ earlier request chunk, earlier ++ [request] <+: requests → request.chunk? = some chunk →
      ((receiver.handleAll earlier).2.handle request).1 = .chunkAck chunk.position := by
  induction requests using List.reverseRecOn with
  | nil => exact fun earlier request chunk before => by simp at before
  | append_singleton requests request ih =>
      have slicesBefore : AreSlices truth names requests := fun other member =>
        slices other (List.mem_append_left _ member)
      have before := ih slicesBefore fun name member earlier inside => addUp name member earlier
        (inside.trans ((List.prefix_append requests [request]).filterMap _))
      intro earlier other chunk inside asked
      rcases List.prefix_concat_iff.mp inside with last | inside
      · obtain ⟨rfl, same⟩ := List.append_inj' last rfl
        cases same
        have assembling := begun.of_acknowledged slicesBefore before
        obtain ⟨_, same, named, isTrue⟩ := slices request (by simp)
        cases asked.symm.trans same
        obtain ⟨final, ran⟩ := assembling.transfer_of_exact asked isTrue named
          (addUp _ named _ (List.prefix_refl _)).1
        obtain ⟨number, recovery, shard, totalOps, rfl⟩ := Request.exists_of_chunk? asked
        have going : (receiver.handleAll earlier).2.isOver = false :=
          Receiver.isOver_of_phase assembling.inFiles
        have ran : (Command.transfer chunk totalOps).perform.start _ = _ := ran
        exact congrArg Prod.fst (Receiver.handle_of_ok going ran number recovery shard)
      · exact before earlier other chunk inside asked

/-- What the slices come to that a receiver has got all of. -/
theorem written_of_isFull (assembling : Assembling truth names requests receiver)
    {name : String} (named : name ∈ names)
    (full : Slice.IsFull (truth name).length (slicesOf name requests)) :
    checksum (Slice.written (truth name) (slicesOf name requests)) = checksum (truth name) := by
  obtain ⟨incoming, content, _, _, _, ⟨_, lacking⟩ | assembled⟩ := assembling.files name named
  · exact absurd full (lacking _ (List.prefix_refl _))
  · obtain ⟨earlier, ⟨later, split⟩, before, octets, same⟩ := assembled.complete
    rw [← split] at full ⊢
    rwa [Slice.written_append before full, ← octets]

end Assembling

/-- Files are staged under admissible names only. -/
theorem Receiving.forM_stage_valid {files : List (String × UInt64)} {final : Receiver}
    (ran : (files.forM stage).start receiver = (.ok (), final)) :
    ∀ file ∈ files,
      Store.isValidName (Store.tempName receiver.target.recovery file.1) = true := by
  induction files generalizing receiver with
  | nil => exact fun file member => by cases member
  | cons file files ih =>
      rw [List.forM_eq_forM, List.forM_cons] at ran
      obtain ⟨_, between, first, ran⟩ := bind_ok ran
      have later := ih ran
      rw [(stage_eq first).1] at later
      refine List.forall_mem_cons.mpr ⟨?_, later⟩
      unfold stage at first
      rw [start_get_bind] at first
      obtain ⟨_, _, made, _⟩ := bind_ok first
      rw [start_throughStore, Prod.mk.injEq, mapError_eq_ok_iff] at made
      exact (Store.createSized_eq_ok_iff.mp (Prod.ext made.1 rfl)).1

/-- The files are announced and none of them has been written. -/
theorem assembling_of_announced {recovery number asked : Int64} {shard part : ShardId}
    {copy : ShardCopy} {journal : Log.Journal} {announcement : Announcement} {totalOps : UInt32}
    (announced : ({ target := { recovery, shard }, copy, journal } : Receiver).handle
      (.step number asked part (.announce announcement totalOps)) = (.ack, receiver))
    (sized : ∀ file ∈ announcement.names.zip announcement.sizes,
      (truth file.1).length = file.2.toNat) :
    Assembling truth announcement.names [] receiver := by
  have ran := Receiver.perform_of_handle announced nofun
  obtain ⟨_, _, bytes, between, accepted, staged, copied, target⟩ := Receiving.announce_ok ran
  obtain ⟨zipped, distinct⟩ := Announcement.files_of_accept accepted
  have file {name : String} (member : name ∈ announcement.names) :
      ∃ size, (name, size) ∈ announcement.names.zip announcement.sizes := by
    rw [← zipped] at member
    obtain ⟨file, listed, rfl⟩ := List.mem_map.mp member
    exact ⟨file.2, listed⟩
  have same : receiver.target.recovery = recovery := by
    rw [target]
    exact congrArg Target.recovery (Receiving.forM_stage_ok staged).1
  refine ⟨by rw [Receiver.phase, target], fun name member => ?_, fun name member => ?_,
    fun name member => ?_⟩
  · obtain ⟨size, listed⟩ := file member
    rw [sized _ listed]
    exact size.toNat_lt_size
  · obtain ⟨size, listed⟩ := file member
    rw [same]
    exact Receiving.forM_stage_valid staged (name, size) listed
  · obtain ⟨size, listed⟩ := file member
    obtain ⟨entered, made⟩ := (Receiving.forM_stage_blank distinct staged).1 _ listed
    have blank := Gathered.blank name (truth name) (Store.tempName recovery name)
    rw [sized _ listed] at blank
    rw [same, copied, target]
    refine ⟨_, _, entered, rfl, made, .inl ⟨blank, fun earlier before full => ?_⟩⟩
    exact full.1 (List.prefix_nil.mp before)

/-- Whether true slices of announced files complete these can be told from the slices of
each file: they do if and only if they add up to it. -/
theorem completes_iff {recovery number asked : Int64} {shard part : ShardId}
    {copy : ShardCopy} {journal : Log.Journal} {announcement : Announcement} {totalOps : UInt32}
    (announced : ({ target := { recovery, shard }, copy, journal } : Receiver).handle
      (.step number asked part (.announce announcement totalOps)) = (.ack, receiver))
    (sized : ∀ file ∈ announcement.names.zip announcement.sizes,
      (truth file.1).length = file.2.toNat)
    (slices : AreSlices truth announcement.names requests) :
    Completes truth announcement.names receiver requests ↔
      ∀ name ∈ announcement.names, Slice.AddUp (truth name) (slicesOf name requests) := by
  have begun := assembling_of_announced announced sized
  have slicesOfPrefix {earlier : List Request} (before : earlier <+: requests) :
      AreSlices truth announcement.names earlier :=
    fun request member => slices request (before.subset member)
  constructor
  · intro completes name named earlier before
    obtain ⟨sent, inside, rfl⟩ := List.prefix_filterMap_iff.mp before
    have assembling := begun.of_acknowledged (slicesOfPrefix inside)
      fun earlier request chunk before =>
        completes.acknowledged earlier request chunk (before.trans inside)
    refine ⟨assembling.written_of_isFull named, fun covered => ?_⟩
    obtain ⟨incoming, content, found, verified, there, whole⟩ :=
      completes.assembled sent inside name named covered
    obtain ⟨_, _, known, _, thereToo, progresses⟩ := assembling.files name named
    cases known.symm.trans found
    cases thereToo.symm.trans there
    rcases progresses with ⟨gathered, _⟩ | assembled
    · exact absurd (gathered.pending.symm.trans verified) Bool.false_ne_true
    · obtain ⟨first, before, full, octets, _⟩ := assembled.complete
      exact ⟨first, before, full, octets.symm.trans whole⟩
  · intro addUp
    have acknowledged := begun.acknowledges slices addUp
    refine ⟨acknowledged, fun earlier before name named covered => ?_, fun earlier before => ?_⟩
    · have assembling := begun.of_acknowledged (slicesOfPrefix before)
        fun first request chunk inside => acknowledged first request chunk (inside.trans before)
      obtain ⟨incoming, content, found, stored, there, progresses⟩ := assembling.files name named
      obtain ⟨first, inside, full, whole⟩ :=
        (addUp name named _ (before.filterMap _)).2 covered
      rcases progresses with ⟨_, lacking⟩ | assembled
      · exact absurd full (lacking first inside)
      · obtain ⟨other, insideToo, fullToo, octets, _⟩ := assembled.complete
        refine ⟨incoming, content, found, assembled.verified, there, octets.trans ?_⟩
        -- both are full, so what the longer one adds is empty
        rcases List.prefix_or_prefix_of_prefix inside insideToo with ⟨more, rfl⟩ | ⟨more, rfl⟩
        · exact (Slice.written_append full fullToo).trans whole
        · exact (Slice.written_append fullToo full).symm.trans whole
    · have reached : Target.Reached recovery shard receiver.target := by
        rw [← congrArg (·.2.target) announced]
        exact .handled .begun
      exact (Receiver.reached_handleAll reached earlier).counting.sent

/-- The announcement of one file, to a new recovery of an empty shard. -/
def announceFour : Announcement :=
  { names := ["a"], sizes := [4], existingNames := [], existingSizes := [] }

def fourAnnounced : Receiver :=
  (Receiver.mk { recovery := 77, shard := Receiver.obstructedShard } {} {}
    |>.handle (.step 0 77 Receiver.obstructedShard (.announce announceFour 0))).2

def fourOctets : Bytes := [1, 2, 3, 4]

/-- A request that brings a slice of that file. -/
def bringsSlice (position count : Nat) : Request :=
  .step 1 77 Receiver.obstructedShard <| .transfer {
    file := .ofContent "a" (.ofBytes fourOctets)
    position := .ofNat position
    content := fourOctets.slice position count
    isLast := false
    checksum := checksum (fourOctets.slice position count) } 0

theorem areSlices_bringsSlice {slices : List (Nat × Nat)}
    (within : ∀ slice ∈ slices, slice.1 + slice.2 ≤ 4) :
    AreSlices (fun _ => fourOctets) announceFour.names
      (slices.map fun slice => bringsSlice slice.1 slice.2) := by
  intro request member
  obtain ⟨⟨position, count⟩, listed, rfl⟩ := List.mem_map.mp member
  have inside : position + count ≤ fourOctets.length := within _ listed
  have placed : (UInt64.ofNat position).toNat = position :=
    UInt64.toNat_ofNat_of_lt (Nat.lt_of_le_of_lt (Nat.le_trans (Nat.le_add_right _ _) inside)
      (by decide))
  have taken := Bytes.length_slice inside
  refine ⟨_, rfl, List.mem_singleton.mpr rfl, rfl, ?_, ?_, rfl⟩
  · rw [Chunk.slice, placed, taken]
    exact inside
  · rw [Chunk.slice, placed, taken]

/-- The two halves of a file, the second of them first and twice. -/
theorem completes_iff_halves :
    let requests := [(2, 2), (0, 2), (2, 2)].map fun slice => bringsSlice slice.1 slice.2
    Completes (fun _ => fourOctets) announceFour.names fourAnnounced requests := by
  intro requests
  refine (completes_iff (Prod.ext (by decide +kernel) rfl) (by decide)
    (areSlices_bringsSlice (by decide))).mpr fun name named => ?_
  obtain rfl := List.mem_singleton.mp named
  have cut : slicesOf "a" requests = [⟨2, 2⟩, ⟨0, 2⟩, ⟨2, 2⟩] := by decide +kernel
  rw [cut]
  refine Slice.addUp_of_apart (fun first here second there => ?_) (by decide)
  have halves {slice : Slice} (member : slice ∈ [⟨2, 2⟩, ⟨0, 2⟩, ⟨2, 2⟩]) :
      slice = ⟨2, 2⟩ ∨ slice = ⟨0, 2⟩ := by
    simp only [List.mem_cons, List.not_mem_nil, or_false] at member
    exact member.elim .inl Or.symm
  rcases halves here with rfl | rfl <;> rcases halves there with rfl | rfl <;>
    simp [Slice.Contains] <;> omega

/-- Slices that overlap: every octet has been in a chunk, and all chunks are acknowledged,
but the file is not verified. -/
theorem not_completes_overlapping :
    let requests := [(0, 3), (1, 3)].map fun slice => bringsSlice slice.1 slice.2
    AreSlices (fun _ => fourOctets) announceFour.names requests ∧
      (fourAnnounced.handleAll requests).1 = [.chunkAck 0, .chunkAck 1] ∧
      ¬ Completes (fun _ => fourOctets) announceFour.names fourAnnounced requests := by
  intro requests
  refine ⟨areSlices_bringsSlice (by decide), by decide +kernel, fun completes => ?_⟩
  obtain ⟨incoming, content, found, verified, _⟩ :=
    completes.assembled requests (List.prefix_refl _) "a" (by decide) (by decide +kernel)
  have pending : (fourAnnounced.handleAll requests).2.target.incoming["a"]?.map (·.isVerified) =
      some false := by decide +kernel
  rw [found] at pending
  exact absurd (verified.symm.trans (Option.some.inj pending)) nofun

end Runs

end ShardSync.Recovery
