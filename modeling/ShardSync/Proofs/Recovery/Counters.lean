import Mathlib.Algebra.GroupWithZero.Nat
import ShardSync.Proofs.Recovery.Assembly
import ShardSync.Proofs.Recovery.Replay

/-!
# What a target counts

A target counts the files that it has verified and the operations that it has
replayed. The counts never exceed what was announced, and a target that is done
has counted all of it.
-/

set_option autoImplicit false

namespace ShardSync.Recovery

/-- The files that have been verified. -/
def verified (files : Std.ExtTreeMap String Incoming) : Std.ExtTreeMap String Incoming :=
  files.filter fun _ incoming => incoming.isVerified

section Verified

variable {files : Std.ExtTreeMap String Incoming} {name : String} {before entry : Incoming}

theorem getElem?_verified (files : Std.ExtTreeMap String Incoming) (name : String) :
    (verified files)[name]? = files[name]?.filter (·.isVerified) :=
  Std.ExtTreeMap.getElem?_filter'

theorem size_verified_le (files : Std.ExtTreeMap String Incoming) :
    (verified files).size ≤ files.size :=
  Std.ExtTreeMap.size_filter_le_size

theorem verified_eq_self
    (all : ∀ (name : String) (incoming : Incoming), files[name]? = some incoming →
      incoming.isVerified = true) : verified files = files := by
  apply Std.ExtTreeMap.ext_getElem?
  intro name
  rw [getElem?_verified]
  cases found : files[name]? with
  | none => rfl
  | some incoming => simp [Option.filter, all name incoming found]

theorem verified_eq_empty
    (none : ∀ (name : String) (incoming : Incoming), files[name]? = some incoming →
      incoming.isVerified = false) : verified files = ∅ := by
  apply Std.ExtTreeMap.ext_getElem?
  intro name
  rw [getElem?_verified]
  cases found : files[name]? with
  | none => simp
  | some incoming => simp [Option.filter, none name incoming found]

theorem verified_insert (files : Std.ExtTreeMap String Incoming) (name : String)
    (entry : Incoming) :
    verified (files.insert name entry) =
      if entry.isVerified then (verified files).insert name entry
      else (verified files).erase name := by
  apply Std.ExtTreeMap.ext_getElem?
  intro other
  rw [getElem?_verified, Std.ExtTreeMap.getElem?_insert]
  by_cases isVerified : entry.isVerified = true
  · rw [if_pos isVerified, Std.ExtTreeMap.getElem?_insert, getElem?_verified]
    split
    · simp [Option.filter, isVerified]
    · rfl
  · rw [if_neg isVerified, Std.ExtTreeMap.getElem?_erase, getElem?_verified]
    split
    · simp [Option.filter, isVerified]
    · rfl

theorem contains_verified (found : files[name]? = some before) :
    (verified files).contains name = before.isVerified := by
  rw [← Std.ExtTreeMap.isSome_getElem?_eq_contains, getElem?_verified, found]
  cases isVerified : before.isVerified <;> simp [Option.filter, isVerified]

theorem size_verified_insert_pending (found : files[name]? = some before)
    (pending : before.isVerified = false) (still : entry.isVerified = false) :
    (verified (files.insert name entry)).size = (verified files).size := by
  rw [verified_insert, still, if_neg Bool.false_ne_true, Std.ExtTreeMap.size_erase,
    contains_verified found, pending]
  rfl

theorem size_verified_insert_verified (found : files[name]? = some before)
    (pending : before.isVerified = false) (done : entry.isVerified = true) :
    (verified (files.insert name entry)).size = (verified files).size + 1 := by
  rw [verified_insert, if_pos done, Std.ExtTreeMap.size_insert, contains_verified found, pending]
  rfl

theorem size_insert_of_found (found : files[name]? = some before) (entry : Incoming) :
    (files.insert name entry).size = files.size := by
  rw [Std.ExtTreeMap.size_insert, ← Std.ExtTreeMap.isSome_getElem?_eq_contains, found]
  rfl

end Verified

namespace Target

def verifiedFiles (target : Target) : Nat := (verified target.incoming).size

/-- The counts of a target keep within what was announced. -/
structure Counted (target : Target) : Prop where
  sent : target.progress.filesSent = target.verifiedFiles
  files : target.progress.filesSent + target.progress.filesReused ≤ target.progress.filesTotal
  bytes : target.progress.bytesReused ≤ target.progress.bytesTotal
  skipped : target.progress.opsSkipped ≤ target.progress.opsRecovered
  recovered : target.progress.opsRecovered ≤ target.progress.opsTotal
  done : target.progress.phase = .done →
    target.progress.filesSent + target.progress.filesReused = target.progress.filesTotal ∧
      target.progress.opsRecovered = target.progress.opsTotal

/-- What else holds of the counts between two requests, until the target fails. -/
structure Counting (target : Target) : Prop extends target.Counted where
  announced : target.progress.phase = .files ∨ target.progress.phase = .ops →
    target.progress.filesTotal = target.incoming.size + target.progress.filesReused ∧
      target.progress.opsTotal = target.totalOps
  replayed : target.progress.phase = .ops →
    target.progress.opsRecovered = target.opsRecovered ∧
      target.opsRecovered ≤ target.totalOps

theorem counting_begun (recovery : Int64) (shard : ShardId) :
    Counting { recovery, shard } where
  sent := by simp [verifiedFiles, verified_eq_empty]
  files := Nat.le_refl 0
  bytes := Nat.le_refl 0
  skipped := Nat.le_refl 0
  recovered := Nat.le_refl 0
  done := nofun
  announced := nofun
  replayed := nofun

end Target

namespace Announcement

theorem totalSize_eq_ok_iff {what : String} {sizes : List UInt64} {total : Nat} :
    totalSize what sizes = .ok total ↔
      total = (sizes.map (·.toNat)).sum ∧ total < UInt64.size := by
  have sum : sizes.foldr (fun size rest => size.toNat + rest) 0 = (sizes.map (·.toNat)).sum := by
    induction sizes with
    | nil => rfl
    | cons size sizes ih => rw [List.foldr_cons, List.map_cons, List.sum_cons, ih]
  unfold totalSize
  dsimp only
  rw [sum]
  constructor
  · intro summed
    split at summed
    · next small =>
        cases summed
        exact ⟨rfl, small⟩
    · cases summed
  · rintro ⟨rfl, small⟩
    rw [if_pos small]

/-- What an accepted announcement says about its own sizes. -/
theorem sizes_of_accept {announcement : Announcement} {store : Store} {bytes : AnnouncedBytes}
    (accepted : announcement.accept store = .ok bytes) :
    announcement.names.length = announcement.sizes.length ∧
      bytes.total = (announcement.sizes.map (·.toNat)).sum +
        (announcement.existingSizes.map (·.toNat)).sum ∧
      bytes.reused = (announcement.existingSizes.map (·.toNat)).sum := by
  simp only [accept, bind_eq_ok_iff] at accepted
  obtain ⟨_, counted, _, _, held, _, _, _, sent, announced, reused, alsoAnnounced, accepted⟩ :=
    accepted
  rw [totalSize_eq_ok_iff] at announced alsoAnnounced
  have lengths : announcement.names.length = announcement.sizes.length := by
    by_contra differ
    simp [checkCounts, differ, bind, Except.bind] at counted
  split at accepted
  · cases accepted
  · cases accepted
    exact ⟨lengths, by rw [announced.1, alsoAnnounced.1], alsoAnnounced.1⟩

/-- Every name of an accepted announcement has a size, and no two files have one name. -/
theorem files_of_accept {announcement : Announcement} {store : Store} {bytes : AnnouncedBytes}
    (accepted : announcement.accept store = .ok bytes) :
    (announcement.names.zip announcement.sizes).map Prod.fst = announcement.names ∧
      ((announcement.names.zip announcement.sizes).map Prod.fst).Nodup := by
  have zipped : (announcement.names.zip announcement.sizes).map Prod.fst = announcement.names :=
    List.map_fst_zip (Nat.le_of_eq (sizes_of_accept accepted).1)
  refine ⟨zipped, ?_⟩
  rw [zipped]
  exact (List.nodup_append.mp (checkNames_ok (accept_ok accepted)).1).1

end Announcement

namespace Receiver

/-- Nothing has been counted between two states of a target. -/
structure SameCounts (before after : Receiver) : Prop where
  progress : { after.target.progress with phase := .init } =
    { before.target.progress with phase := .init }
  verified : after.target.verifiedFiles = before.target.verifiedFiles

theorem SameCounts.refl (receiver : Receiver) : SameCounts receiver receiver := ⟨rfl, rfl⟩

/-- The counts of a target, and the files that it is to receive. -/
def counts (receiver : Receiver) : Progress × Std.ExtTreeMap String Incoming :=
  ({ receiver.target.progress with phase := .init }, receiver.target.incoming)

theorem SameCounts.of_counts {before after : Receiver} (same : after.counts = before.counts) :
    SameCounts before after := by
  simp only [counts, Prod.mk.injEq] at same
  exact ⟨same.1, congrArg (fun files => (ShardSync.Recovery.verified files).size) same.2⟩

/-- A file that is being received has been looked at, and nothing has been counted. -/
structure Unverified (name : String) (before after : Receiver) : Prop where
  progress : after.target.progress = before.target.progress
  size : after.target.incoming.size = before.target.incoming.size
  verified : after.target.verifiedFiles = before.target.verifiedFiles
  entry : ∃ incoming, after.target.incoming[name]? = some incoming ∧ incoming.isVerified = false

namespace Unverified

variable {name : String} {before between after : Receiver}

theorem sameCounts (pending : Unverified name before after) : SameCounts before after :=
  ⟨by rw [pending.progress], pending.verified⟩

theorem of_target (pending : Unverified name before between)
    (same : after.target = between.target) : Unverified name before after := by
  obtain ⟨progress, size, verified, entry⟩ := pending
  rw [← same] at progress size verified entry
  exact ⟨progress, size, verified, entry⟩

theorem set (pending : Unverified name before between) (entry : Incoming)
    (unverified : entry.isVerified = false)
    (same : after.target = { between.target with
      incoming := between.target.incoming.insert name entry }) : Unverified name before after := by
  obtain ⟨incoming, found, still⟩ := pending.entry
  constructor
  · rw [same]
    exact pending.progress
  · rw [same]
    exact (size_insert_of_found found entry).trans pending.size
  · rw [same]
    exact (size_verified_insert_pending found still unverified).trans pending.verified
  · rw [same]
    exact ⟨entry, Std.ExtTreeMap.getElem?_insert_self, unverified⟩

end Unverified

end Receiver

namespace Receiving

open Receiver (SameCounts Unverified counts)

variable {receiver : Receiver}

theorem target_discard (incoming : Incoming) :
    Keeps (fun receiver => receiver.target) (discard incoming) := by
  intro receiver
  unfold discard
  rw [start_get_bind]
  cases receiver.copy.store.delete incoming.tempName <;> rfl

theorem ensures_of_unverified {α : Type} {name : String} {between : Receiver} {step : Receiving α}
    (kept : Keeps (fun receiver => receiver.target) step)
    (pending : Unverified name receiver between) :
    Ensures (SameCounts receiver) step (fun _ => Unverified name receiver) between :=
  (Ensures.of_keeps kept fun _ same => pending.of_target same).mono
    (fun _ pending => pending.sameCounts) fun _ _ pending => pending

theorem ensures_checkContent {name : String} {between : Receiver} (incoming : Incoming)
    (chunk : Chunk) (pending : Unverified name receiver between) :
    Ensures (SameCounts receiver) (checkContent incoming chunk)
      (fun _ => Unverified name receiver) between := by
  have kept : Keeps (fun receiver => receiver.target) (checkContent incoming chunk) := by
    refine .ite ?_ (.pure ())
    refine .bind (.count fun _ => rfl) fun _ => .bind (.log fun _ _ => rfl) fun _ => ?_
    exact .bind (target_discard incoming) fun _ => .throw _
  exact ensures_of_unverified kept pending

theorem ensures_writeChunk {between : Receiver} {incoming : Incoming} {chunk : Chunk}
    (pending : Unverified chunk.file.name receiver between)
    (unverified : incoming.isVerified = false) :
    Ensures (SameCounts receiver) (writeChunk incoming chunk)
      (fun entry after => entry.isVerified = false ∧ Unverified chunk.file.name receiver after)
      between := by
  unfold writeChunk
  split
  · exact ⟨unverified, pending⟩
  · rw [ensures_bind]
    refine ensures_onStore pending.sameCounts fun store => ?_
    rw [ensures_bind, setIncoming, ensures_modifyTarget]
    exact ⟨unverified, pending.set (incoming.take chunk) unverified rfl⟩

/-- What a chunk that is taken counts: its file, if that has been verified thereby. -/
def Transferred (before after : Receiver) : Prop :=
  after.target.progress =
      { before.target.progress with filesSent := after.target.verifiedFiles } ∧
    after.target.incoming.size = before.target.incoming.size

theorem transferred_of_unverified {name : String} {after : Receiver}
    (pending : Unverified name receiver after)
    (sent : receiver.target.progress.filesSent = receiver.target.verifiedFiles) :
    Transferred receiver after := by
  refine ⟨?_, pending.size⟩
  rw [pending.progress, pending.verified, ← sent]

theorem ensures_verify {between : Receiver} (incoming : Incoming) {file : FileMetadata}
    (pending : Unverified file.name receiver between)
    (sent : receiver.target.progress.filesSent = receiver.target.verifiedFiles) :
    Ensures (SameCounts receiver) (verify incoming file)
      (fun _ => Transferred receiver) between := by
  simp only [verify, ensures_bind, ensures_get]
  split
  · simp only [ensures_bind, ensures_count]
    refine ensures_log fun journal => ?_
    have pending : Unverified file.name receiver { between with journal } :=
      pending.of_target rfl
    exact (ensures_of_unverified (target_discard incoming) pending).mono (fun _ => id)
      fun _ _ pending => pending.sameCounts
  · simp only [ensures_bind, setIncoming, ensures_modifyTarget, ensures_modifyProgress]
    refine ensures_log fun journal => ?_
    obtain ⟨before, found, unverified⟩ := pending.entry
    have one := size_verified_insert_verified found unverified
      (show { incoming with isVerified := true }.isVerified = true from rfl)
    have same : (verified between.target.incoming).size = receiver.target.progress.filesSent :=
      pending.verified.trans sent.symm
    refine ⟨?_, (size_insert_of_found found _).trans pending.size⟩
    simp only [Target.verifiedFiles, one, same, pending.progress]

theorem isVerified_describe {incoming described : Incoming} {file : FileMetadata}
    (known : incoming.describe file = .ok described) :
    described.isVerified = incoming.isVerified := by
  rw [Incoming.describe_eq_ok known]

/-- A chunk that is not taken changes no count. -/
theorem ensures_transfer (chunk : Chunk)
    (sent : receiver.target.progress.filesSent = receiver.target.verifiedFiles) :
    Ensures (SameCounts receiver) (transfer chunk) (fun _ => Transferred receiver) receiver := by
  simp only [transfer, ensures_bind, ensures_get]
  refine ensures_check (.refl receiver) fun _ _ => ?_
  split
  · exact SameCounts.refl receiver
  · next incoming found =>
      split
      · next pending =>
          have looked : Unverified chunk.file.name receiver receiver :=
            ⟨rfl, rfl, rfl, incoming, found, by simpa using pending⟩
          simp only [ensures_bind, setIncoming, ensures_modifyTarget]
          refine ensures_check (.refl receiver) fun described known => ?_
          have unverified : described.isVerified = false :=
            (isVerified_describe known).trans (by simpa using pending)
          have looked : Unverified chunk.file.name receiver { receiver with
              target.incoming := receiver.target.incoming.insert chunk.file.name described } :=
            looked.set described unverified rfl
          refine ensures_check looked.sameCounts fun _ _ => ?_
          refine (ensures_checkContent described chunk looked).mono (fun _ => id) fun _ _ looked => ?_
          refine (ensures_writeChunk looked unverified).mono (fun _ => id) ?_
          rintro entry after ⟨_, looked⟩
          split
          · rw [ensures_bind]
            exact ensures_verify entry looked sent
          · exact transferred_of_unverified looked sent
      · exact ⟨by rw [← sent], rfl⟩

/-- Announced files have entries that are not verified. -/
theorem ensures_forM_stage {between : Receiver} (files : List (String × UInt64))
    (progress : between.target.progress = receiver.target.progress)
    (none : verified receiver.target.incoming = ∅)
    (noneYet : verified between.target.incoming = ∅) :
    Ensures (SameCounts receiver) (files.forM stage)
      (fun _ after => after.target.progress = receiver.target.progress ∧
        verified after.target.incoming = ∅) between := by
  induction files generalizing between with
  | nil => exact ⟨progress, noneYet⟩
  | cons file files ih =>
      rw [List.forM_eq_forM, List.forM_cons]
      simp only [stage, ensures_bind, ensures_get]
      have same : between.target.verifiedFiles = receiver.target.verifiedFiles := by
        rw [Target.verifiedFiles, Target.verifiedFiles, none, noneYet]
      refine ensures_throughStore (fun store => ⟨by rw [progress], same⟩) fun _ store => ?_
      rw [ensures_modifyTarget, ← List.forM_eq_forM]
      refine ih progress ?_
      rw [verified_insert, if_neg Bool.false_ne_true, noneYet, Std.ExtTreeMap.erase_empty]

theorem size_forM_stage {files : List (String × UInt64)} {between final : Receiver}
    (distinct : (files.map Prod.fst).Nodup)
    (fresh : ∀ name ∈ files.map Prod.fst, name ∉ between.target.incoming)
    (ran : (files.forM stage).start between = (.ok (), final)) :
    final.target.incoming.size = between.target.incoming.size + files.length := by
  induction files generalizing between with
  | nil => rw [(pure_ok ran).2]; rfl
  | cons file files ih =>
      rw [List.map_cons, List.nodup_cons] at distinct
      rw [List.map_cons, List.forall_mem_cons] at fresh
      rw [List.forM_eq_forM, List.forM_cons] at ran
      obtain ⟨_, staged, first, ran⟩ := bind_ok ran
      have entered := stage_ok first
      have left : ∀ name ∈ files.map Prod.fst, name ∉ staged.target.incoming := by
        intro name member there
        rw [entered, Std.ExtTreeMap.mem_insert] at there
        rcases there with same | earlier
        · rw [← Std.LawfulEqOrd.eq_of_compare same] at member
          exact distinct.1 member
        · exact fresh.2 name member earlier
      have one : staged.target.incoming.size = between.target.incoming.size + 1 := by
        rw [entered, Std.ExtTreeMap.size_insert, if_neg]
        exact fun there => fresh.1 (Std.ExtTreeMap.contains_iff_mem.mp there)
      rw [ih distinct.2 left ran, one, List.length_cons, Nat.add_right_comm, Nat.add_assoc]

/-- An announcement that is refused changes no count. -/
theorem ensures_announce (sound : receiver.target.Sound) (announcement : Announcement)
    (totalOps : UInt32) :
    Ensures (SameCounts receiver) (announce announcement totalOps) (fun _ _ => True) receiver := by
  simp only [announce, ensures_bind, ensures_get]
  refine ensures_check (.refl receiver) fun _ expected => ?_
  have begun : receiver.target.progress.phase = .init := Progress.expect_ok expected
  refine ensures_check (.refl receiver) fun bytes _ => ?_
  have none : verified receiver.target.incoming = ∅ := by
    rw [sound.unannounced begun]
    exact verified_eq_empty fun name incoming found => by simp at found
  refine (ensures_forM_stage _ rfl none none).mono (fun _ => id) ?_
  rintro _ between ⟨progress, _⟩
  rw [ensures_modifyTarget, ensures_modifyProgress]
  refine ensures_transition ?_ ?_
  · simp [Progress.setFileTotals, progress, begun, Phase.mayBecome]
  · exact ensures_log fun journal => trivial

theorem counting_announce {announcement : Announcement} {totalOps : UInt32} {reply : Reply}
    {final : Receiver} (sound : receiver.target.Sound) (counting : receiver.target.Counting)
    (ran : (announce announcement totalOps).start receiver = (.ok reply, final)) :
    final.target.Counting := by
  obtain ⟨begun, _, bytes, between, accepted, staged, _, same⟩ := announce_ok ran
  obtain ⟨lengths, total, reused⟩ := Announcement.sizes_of_accept accepted
  have empty : receiver.target.incoming = ∅ := sound.unannounced begun
  have none : verified receiver.target.incoming = ∅ := by
    rw [empty]
    exact verified_eq_empty fun name incoming found => by simp at found
  obtain ⟨progress, noneYet⟩ := (ensures_forM_stage _ rfl none none).of_ok staged
  have size : between.target.incoming.size = announcement.names.length := by
    rw [size_forM_stage ?distinct ?fresh staged, empty, List.length_zip, ← lengths, Nat.min_self]
    · exact (Nat.zero_add _)
    case distinct => exact (Announcement.files_of_accept accepted).2
    case fresh =>
      intro name _
      simp [empty]
  obtain ⟨_, noOps, noSkips⟩ := sound.uncounted (.inl begun)
  have unsent : receiver.target.progress.filesSent = 0 := by
    rw [counting.sent, Target.verifiedFiles, none]
    rfl
  constructor
  case announced =>
    intro _
    rw [same]
    simp [Progress.setFileTotals, size]
  case replayed =>
    intro inOps
    rw [same] at inOps
    cases inOps
  constructor
  case sent =>
    rw [same, Target.verifiedFiles]
    simp [Progress.setFileTotals, progress, unsent, noneYet]
  case files =>
    rw [same]
    simp [Progress.setFileTotals, progress, unsent]
  case bytes =>
    rw [same]
    simp [Progress.setFileTotals, total, reused]
  case skipped =>
    rw [same]
    simp [Progress.setFileTotals, progress, noSkips]
  case recovered =>
    rw [same]
    simp [Progress.setFileTotals, progress, noOps]
  case done =>
    intro done
    rw [same] at done
    cases done

theorem counting_transfer {chunk : Chunk} {reply : Reply} {final : Receiver}
    (counting : receiver.target.Counting)
    (ran : (transfer chunk).start receiver = (.ok reply, final)) : final.target.Counting := by
  obtain ⟨inFiles, _⟩ := transfer_ok ran
  obtain ⟨progress, size⟩ := (ensures_transfer chunk counting.sent).of_ok ran
  have totalOps : final.target.totalOps = receiver.target.totalOps :=
    ((besidesFiles_transfer chunk).part (·.target.totalOps)).of_ok ran
  obtain ⟨filesTotal, opsTotal⟩ := counting.announced (.inl inFiles)
  have within : final.target.verifiedFiles ≤ final.target.incoming.size := size_verified_le _
  have phase : final.target.progress.phase = .files := by
    rw [progress]
    exact inFiles
  constructor
  case announced =>
    intro _
    rw [progress, size, totalOps]
    exact ⟨filesTotal, opsTotal⟩
  case replayed =>
    intro inOps
    rw [phase] at inOps
    cases inOps
  constructor
  case sent => rw [progress]
  case files =>
    rw [progress]
    dsimp only
    omega
  case bytes =>
    rw [progress]
    exact counting.bytes
  case skipped =>
    rw [progress]
    exact counting.skipped
  case recovered =>
    rw [progress]
    exact counting.recovered
  case done =>
    intro done
    rw [phase] at done
    cases done

theorem counts_filesComplete (startSeqNo : Int64) (totalOps : UInt32) :
    Keeps counts (filesComplete startSeqNo totalOps) := by
  have staged (file : String × String) : Keeps counts (stagedSegment file) := by
    refine .bind .get fun receiver => .bind (.check _) fun content => ?_
    cases Segment.decode content with
    | ok segment => exact .pure segment
    | error error => exact .bind (.log fun _ _ => rfl) fun _ => .throw _
  refine .bind .get fun receiver => .bind (.check _) fun _ => .bind (.check _) fun _ => ?_
  refine .bind (.check _) fun _ => .bind (.mapM fun file _ => staged file) fun segments => ?_
  refine .bind .get fun _ => .bind (.check _) fun _ => .bind (.setEngine fun _ => rfl) fun _ => ?_
  refine .bind (.modifyTarget fun _ => rfl) fun _ => ?_
  refine .bind (.transition fun _ _ => rfl) fun _ => ?_
  exact .bind (.log fun _ _ => rfl) fun _ => .bind (.log fun _ _ => rfl) fun _ => .pure _

theorem counting_filesComplete {startSeqNo : Int64} {totalOps : UInt32} {reply : Reply}
    {final : Receiver} (sound : receiver.target.Sound) (counting : receiver.target.Counting)
    (ran : (filesComplete startSeqNo totalOps).start receiver = (.ok reply, final)) :
    final.target.Counting := by
  obtain ⟨inFiles, _, _, _, _, _, _, _, _, same, _⟩ := filesComplete_ok ran
  obtain ⟨noneReplayed, noOps, _⟩ := sound.uncounted (.inr inFiles)
  rw [same]
  constructor
  case announced => exact fun _ => counting.announced (.inl inFiles)
  case replayed =>
    intro _
    dsimp only
    rw [noneReplayed, noOps]
    exact ⟨rfl, Nat.zero_le _⟩
  exact ⟨counting.sent, counting.files, counting.bytes, counting.skipped, counting.recovered, nofun⟩

theorem counts_isHeld (segments : List Segment) (operation : Operation) :
    Keeps counts (isHeld segments operation) := by
  refine .bind .get fun receiver => .ite (.pure true) ?_
  cases operation.id? with
  | none => exact .pure false
  | some id =>
      refine .bind (.modifyTarget fun _ => rfl) fun _ => ?_
      exact .bind (.check _) fun _ => .pure _

theorem counts_replayOne (segments : List Segment) (tally : Tally) (operation : Operation) :
    Keeps counts (replayOne segments tally operation) := by
  refine .bind .get fun receiver => .ite (.pure tally) ?_
  refine .ite (.throw_bind _ _) (.ite (.throw_bind _ _) ?_)
  refine .bind (counts_isHeld segments operation) fun held => .ite ?_ ?_
  · refine .bind .get fun receiver => .bind (.setEngine fun _ => rfl) fun _ => ?_
    exact .bind (.check _) fun _ => .bind (.modifyTarget fun _ => rfl) fun _ => .pure _
  · exact .bind (.modifyTarget fun _ => rfl) fun _ => .pure _

/-- A batch that is not acknowledged is not counted. -/
theorem ensures_replay (operations : List Operation) (totalOps : UInt32) :
    Ensures (SameCounts receiver) (replay operations totalOps) (fun _ _ => True) receiver := by
  simp only [replay, ensures_bind, ensures_get]
  refine ensures_check (.refl receiver) fun _ _ => ensures_check (.refl receiver) fun _ _ => ?_
  refine (Ensures.of_keeps (.foldlM (counts_replayOne _) operations {}) fun after same =>
    SameCounts.of_counts same).mono (fun _ => id) fun tally between unchanged => ?_
  refine ensures_check unchanged fun engine _ => ?_
  simp only [ensures_setEngine, ensures_modifyProgress, ensures_count]
  exact ensures_log fun journal => trivial

/-- No more operations are replayed than were announced. -/
theorem opsRecovered_le_of_replayed {segments : List Segment} {final : Receiver}
    {operations : List Operation} {decisions : List Decision}
    (replayed : receiver.Replayed segments operations decisions final)
    (within : receiver.target.opsRecovered ≤ receiver.target.totalOps) :
    final.target.opsRecovered ≤ final.target.totalOps := by
  induction replayed with
  | done => exact within
  | passed _ _ ih => exact ih within
  | decided _ room decides _ ih =>
      apply ih
      rw [Receiver.advance, decides.target.2.1]
      exact room

theorem counting_replay {operations : List Operation} {totalOps : UInt32} {reply : Reply}
    {final : Receiver} (counting : receiver.target.Counting)
    (ran : (replay operations totalOps).start receiver = (.ok reply, final)) :
    final.target.Counting := by
  obtain ⟨inOps, _, decisions, replayed, engine, replaying, _, rfl, _⟩ :=
    replay_eq_ok_iff.mp ran
  obtain ⟨filesTotal, opsTotal⟩ := counting.announced (.inr inOps)
  obtain ⟨counted, within⟩ := counting.replayed inOps
  have enough := opsRecovered_le_of_replayed replaying within
  have all := Decision.length_applied_add_countP decisions
  have skipped := counting.skipped
  have target := replaying.target.1
  have incoming : replayed.target.incoming = receiver.target.incoming := by rw [target]
  have phase : replayed.target.progress.phase = .ops := by rw [target]; exact inOps
  rw [replaying.opsRecovered, replaying.totalOps] at enough
  constructor
  case announced =>
    intro _
    simp only [Receiver.settle, incoming, replaying.progress, replaying.totalOps]
    exact ⟨filesTotal, opsTotal⟩
  case replayed =>
    intro _
    simp only [Receiver.settle, replaying.progress, replaying.opsRecovered, replaying.totalOps]
    omega
  constructor
  case sent =>
    simp only [Receiver.settle, replaying.progress, Target.verifiedFiles, incoming]
    exact counting.sent
  case files =>
    simp only [Receiver.settle, replaying.progress]
    exact counting.files
  case bytes =>
    simp only [Receiver.settle, replaying.progress]
    exact counting.bytes
  case skipped =>
    simp only [Receiver.settle, replaying.progress]
    omega
  case recovered =>
    simp only [Receiver.settle, replaying.progress]
    omega
  case done =>
    intro done
    simp only [Receiver.settle, phase] at done
    cases done

theorem counts_finalize (globalCheckpoint : Int64) : Keeps counts (finalize globalCheckpoint) := by
  intro receiver
  by_cases ready : receiver.phase = .ops ∧
      receiver.target.opsRecovered = receiver.target.totalOps
  · obtain ⟨journal, _, outcome⟩ := start_finalize ready.1 ready.2 globalCheckpoint
    rw [outcome]
    split
    · rfl
    · rfl
  · obtain ⟨_, outcome⟩ := finalize_refused ready globalCheckpoint
    rw [outcome]

/-- A target that is done has verified all files and replayed all operations. -/
theorem counting_finalize {globalCheckpoint : Int64} {reply : Reply} {final : Receiver}
    (sound : receiver.target.Sound) (counting : receiver.target.Counting)
    (ran : (finalize globalCheckpoint).start receiver = (.ok reply, final)) :
    final.target.Counting := by
  by_cases ready : receiver.phase = .ops ∧
      receiver.target.opsRecovered = receiver.target.totalOps
  · obtain ⟨journal, _, outcome⟩ := start_finalize ready.1 ready.2 globalCheckpoint
    obtain ⟨filesTotal, opsTotal⟩ := counting.announced (.inr ready.1)
    obtain ⟨counted, _⟩ := counting.replayed ready.1
    have all : receiver.target.verifiedFiles = receiver.target.incoming.size := by
      rw [Target.verifiedFiles, verified_eq_self (sound.complete ready.1)]
    rw [outcome] at ran
    split at ran
    · cases ran
      refine ⟨⟨counting.sent, counting.files, counting.bytes, counting.skipped,
        counting.recovered, fun _ => ⟨?_, ?_⟩⟩, ?_, nofun⟩
      · exact (congrArg (· + _) (counting.sent.trans all)).trans filesTotal.symm
      · exact (counted.trans ready.2).trans opsTotal.symm
      · rintro (phase | phase) <;> cases phase
    · cases ran
  · obtain ⟨_, outcome⟩ := finalize_refused ready globalCheckpoint
    rw [outcome] at ran
    cases ran

theorem counting_perform {command : Command} {reply : Reply} {final : Receiver}
    (sound : receiver.target.Sound) (counting : receiver.target.Counting)
    (ran : command.perform.start receiver = (.ok reply, final)) : final.target.Counting := by
  cases command with
  | announce => exact counting_announce sound counting ran
  | transfer => exact counting_transfer counting ran
  | filesComplete => exact counting_filesComplete sound counting ran
  | replay => exact counting_replay counting ran
  | finalize => exact counting_finalize sound counting ran

/-- A command that fails has counted nothing. -/
theorem sameCounts_of_error {command : Command} {error : Error} {final : Receiver}
    (sound : receiver.target.Sound) (counting : receiver.target.Counting)
    (ran : command.perform.start receiver = (.error error, final)) :
    SameCounts receiver final := by
  cases command with
  | announce announcement totalOps =>
      exact (ensures_announce sound announcement totalOps).of_error ran
  | transfer chunk => exact (ensures_transfer chunk counting.sent).of_error ran
  | filesComplete startSeqNo totalOps =>
      exact .of_counts ((counts_filesComplete startSeqNo totalOps).after ran)
  | replay operations totalOps => exact (ensures_replay operations totalOps).of_error ran
  | finalize globalCheckpoint => exact .of_counts ((counts_finalize globalCheckpoint).after ran)

end Receiving

namespace Receiver

variable {receiver after : Receiver} {request : Request} {reply : Reply}

theorem incoming_abort (receiver : Receiver) (description : String) (cancelled : Bool)
    (event : Log.Event) (fields : List (String × String)) :
    (receiver.abort description cancelled event fields).target.incoming =
      receiver.target.incoming := by
  unfold abort
  dsimp only
  split <;> simp [log, logLine]

/-- A target that is given up keeps its counts. -/
theorem counting_abort {between : Receiver} (going : between.isOver = false)
    (counting : receiver.target.Counting) (same : SameCounts receiver between)
    (description : String) (cancelled : Bool) (event : Log.Event)
    (fields : List (String × String)) :
    (between.abort description cancelled event fields).target.Counting := by
  have progress := progress_abort going description cancelled event fields
  have verified : (between.abort description cancelled event fields).target.verifiedFiles =
      receiver.target.verifiedFiles := by
    rw [Target.verifiedFiles, incoming_abort]
    exact same.verified
  have counts := same.progress
  simp only [Progress.mk.injEq, true_and] at counts
  obtain ⟨filesTotal, filesSent, filesReused, bytesTotal, _, bytesReused, opsTotal, opsRecovered,
    opsSkipped, _⟩ := counts
  refine ⟨⟨?_, ?_, ?_, ?_, ?_, ?_⟩, ?_, ?_⟩
  · rw [progress, verified, ← counting.sent, ← filesSent]
  · simpa only [progress, filesTotal, filesSent, filesReused] using counting.files
  · simpa only [progress, bytesTotal, bytesReused] using counting.bytes
  · simpa only [progress, opsSkipped, opsRecovered] using counting.skipped
  · simpa only [progress, opsTotal, opsRecovered] using counting.recovered
  · rw [progress]
    nofun
  · rw [progress]
    rintro (phase | phase) <;> cases phase
  · rw [progress]
    nofun

theorem Answer.counting (answer : receiver.Answer request reply after)
    (sound : receiver.phase ≠ .failed → receiver.target.Sound)
    (counting : receiver.target.Counting) : after.target.Counting := by
  cases answer with
  | @cancelled _ _ reason =>
      cases ended : receiver.isOver with
      | true =>
          rw [cancel_of_isOver ended]
          exact counting
      | false =>
          have going : receiver.target.progress.isTerminal = false := ended
          rw [cancel, if_neg (by simp [going])]
          exact counting_abort ended counting (.refl receiver) ..
  | refused ended => exact counting
  | performed going ran =>
      exact Receiving.counting_perform (sound (not_failed_of_going going)) counting ran
  | failed going ran =>
      have same := Receiving.sameCounts_of_error (sound (not_failed_of_going going)) counting ran
      exact counting_abort (Receiving.isOver_perform going ran) counting same ..

end Receiver

/-- Whatever requests a target gets, its counts keep within what was announced. -/
theorem Target.Reached.counting {recovery : Int64} {shard : ShardId} {target : Target}
    (reached : Reached recovery shard target) : target.Counting := by
  induction reached with
  | begun => exact counting_begun recovery shard
  | handled reached ih => exact (Receiver.answer_handle _ _).counting reached.sound ih

end ShardSync.Recovery
