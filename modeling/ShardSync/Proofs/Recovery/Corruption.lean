import ShardSync.Proofs.Checksum
import ShardSync.Proofs.Recovery.Completion
import ShardSync.Proofs.Recovery.Confinement
import ShardSync.Proofs.Recovery.Transfers
import ShardSync.Segment.Format

/-!
# Corrupt octets

An octet that was changed after its checksum had been taken does not go unnoticed. The file
of a segment is not read any more, and a chunk of a file that is being received ends the
recovery before anything of it is written.
-/

set_option autoImplicit false

namespace ShardSync

/-- The checksum is compared before anything else of a file is looked at, so it does not
matter what the changed octet says. -/
theorem Segment.decode_altered {segment : Segment} {file : Bytes} {place : Nat}
    (differs : segment.encode.DiffersOnlyAt file place) :
    decode file = .error (.corrupt "segment footer checksum mismatch") := by
  obtain ⟨body, footer, rfl, length, width, differ⟩ := checksum_ne_of_sealed differs
  have long : letters.length + footerLength ≤ (body ++ footer).length := by
    have written : letters.length ≤ body.length := by
      rw [length]
      exact List.length_append ▸ Nat.le_add_right _ _
    rw [List.length_append, width]
    exact Nat.add_le_add_right written _
  have split : (body ++ footer).length - footerLength = body.length := by
    rw [List.length_append, width, footerLength, Nat.add_sub_cancel]
  unfold decode
  rw [if_neg (Nat.not_lt.mpr long), split, List.take_left, List.drop_left]
  exact if_pos differ.symm

namespace Recovery

/-- A chunk is expected if its file is being received, and what comes with it fits the
announcement and the chunks before. -/
structure Receiver.Expects (receiver : Receiver) (chunk : Chunk) (incoming described : Incoming) :
    Prop where
  inFiles : receiver.phase = .files
  found : receiver.target.incoming[chunk.file.name]? = some incoming
  pending : incoming.isVerified = false
  known : incoming.describe chunk.file = .ok described
  bounded : described.checkBounds chunk = .ok ()

namespace Receiving

/-- An expected chunk that does not have its checksum is not written. -/
theorem transfer_mismatch {receiver : Receiver} {chunk : Chunk} {incoming described : Incoming}
    (expects : receiver.Expects chunk incoming described)
    (differs : checksum chunk.content ≠ chunk.checksum) :
    ∃ detail final,
      (transfer chunk).start receiver = (.error (.checksumMismatch detail), final) ∧
        final.target = { receiver.target with
          incoming := receiver.target.incoming.insert chunk.file.name described } := by
  have expected : receiver.target.progress.expect .files = .ok () := if_pos expects.inFiles
  unfold transfer
  rw [start_get_bind, start_bind, start_check, expected]
  dsimp only
  rw [expects.found]
  dsimp only
  rw [expects.pending, if_pos (by rfl), start_bind, start_check, expects.known]
  dsimp only
  rw [setIncoming, start_bind_of_ok (start_modifyTarget _ _), start_bind, start_check,
    expects.bounded]
  dsimp only
  rw [start_bind, checkContent]
  dsimp only
  rw [if_pos differs, start_bind_of_ok (start_count _ _), start_bind_of_ok (start_log _ _ _)]
  obtain ⟨final, discarded, target, -⟩ := start_discard described { receiver with
    target := { receiver.target with
      incoming := receiver.target.incoming.insert chunk.file.name described }
    journal := _ }
  rw [start_bind_of_ok discarded]
  exact ⟨_, final, rfl, target⟩

/-- No chunk is looked at before the files are announced, or when they are complete. -/
theorem transfer_refused {receiver : Receiver} (elsewhere : receiver.phase ≠ .files)
    (chunk : Chunk) :
    ∃ error, error.kind = .protocolViolation ∧
      (transfer chunk).start receiver = (.error error, receiver) := by
  have unexpected : receiver.target.progress.expect .files = .error _ := if_neg elsewhere
  unfold transfer
  rw [start_get_bind, start_bind, start_check, unexpected]
  exact ⟨_, rfl, rfl⟩

end Receiving

/-- One octet that is changed in the file of a segment makes it unreadable, and one that is
changed in an expected chunk ends the recovery, which leaves none of its files behind in a
store whose files it can delete. -/
theorem corruption_detected :
    (∀ (segment : Segment) (file : Bytes) (place : Nat),
      segment.encode.DiffersOnlyAt file place →
        Segment.decode file = .error (.corrupt "segment footer checksum mismatch")) ∧
    ∀ (recovery : Int64) (shard : ShardId) (copy : ShardCopy) (journal : Log.Journal)
      (requests : List Request) (chunk : Chunk) (incoming described : Incoming) (sent : Bytes)
      (place : Nat),
      let begun : Receiver := { target := { recovery, shard }, copy, journal }
      let reached := (begun.handleAll requests).2
      reached.Expects chunk incoming described →
      chunk.checksum = checksum sent → sent.DiffersOnlyAt chunk.content place →
      ∃ detail,
        ((Receiving.transfer chunk).start reached).1 = .error (.checksumMismatch detail) ∧
        ∀ (number asked : Int64) (part : ShardId) (totalOps : UInt32),
          let answer := reached.handle (.step number asked part (.transfer chunk totalOps))
          answer.1 = .failure "RECOVERY_CHECKSUM_MISMATCH" detail ∧ answer.2.phase = .failed ∧
            (copy.store.WellNamed → ∀ name, Store.isTempOf recovery name = true →
              answer.2.copy.store.files[name]? = none) := by
  refine ⟨fun _ _ _ => Segment.decode_altered, ?_⟩
  intro recovery shard copy journal requests chunk incoming described sent place begun reached
    expects summed altered
  have differs : checksum chunk.content ≠ chunk.checksum := summed ▸ checksum_ne altered
  obtain ⟨detail, final, ran, -⟩ := Receiving.transfer_mismatch expects differs
  have going : reached.isOver = false := Receiver.isOver_of_phase expects.inFiles
  refine ⟨detail, by rw [ran], ?_⟩
  intro number asked part totalOps answer
  have performed : (Command.transfer chunk totalOps).perform.start reached =
      (.error (.checksumMismatch detail), final) := ran
  have failed : answer = _ := Receiver.handle_of_error going performed number asked part
  have ended : answer.2.phase = .failed := by
    rw [failed]
    exact Receiver.phase_fail going performed _
  refine ⟨?_, ended, fun wellNamed => ?_⟩
  · rw [failed]
    rfl
  · have within : Receiver.Within recovery copy.store reached :=
      (Receiver.Within.begun recovery shard copy journal).handleAll wellNamed requests
    have after : Receiver.Within recovery copy.store answer.2 :=
      within.handleAll wellNamed [.step number asked part (.transfer chunk totalOps)]
    exact after.cleared ended

/-- A shard to which a file of four octets has been announced. -/
def announcedAmongLitter : Receiver :=
  (Receiver.mk { recovery := 77, shard := Receiver.obstructedShard }
    { store := Receiver.littered } {}
    |>.handleAll [.step 0 77 Receiver.obstructedShard (.announce announceFour 0)]).2

/-- The whole of that file, but the third octet is another. -/
def alteredFour : Chunk where
  file := .ofContent "a" (.ofBytes fourOctets)
  position := 0
  content := [1, 2, 9, 4]
  isLast := true
  checksum := checksum fourOctets

def bringsAltered : Request :=
  .step 1 77 Receiver.obstructedShard (.transfer alteredFour 0)

theorem corruption_detected_four :
    let segment : Segment := { generation := 1, maxDoc := 0 }
    Segment.decode (segment.encode.set 5 7) =
      .error (.corrupt "segment footer checksum mismatch") ∧
    announcedAmongLitter.copy.store.files[Store.tempName 77 "a"]?.isSome ∧
    (∃ detail, (announcedAmongLitter.handle bringsAltered).1 =
      .failure "RECOVERY_CHECKSUM_MISMATCH" detail) ∧
    (announcedAmongLitter.handle bringsAltered).2.phase = .failed ∧
    (announcedAmongLitter.handle bringsAltered).2.copy.store.files[Store.tempName 77 "a"]? =
      none := by
  intro segment
  obtain ⟨segments, chunks⟩ := corruption_detected
  have unreadable := segments segment (segment.encode.set 5 7) 5 ⟨by decide +kernel, 7, rfl⟩
  have staged : announcedAmongLitter.copy.store.files[Store.tempName 77 "a"]?.isSome := by
    decide +kernel
  have expects : announcedAmongLitter.Expects alteredFour
      { tempName := "recovery.77.a", length := 4 }
      { tempName := "recovery.77.a", length := 4, file? := some alteredFour.file } := by
    constructor
    case inFiles => decide +kernel
    case found => rfl
    case pending => rfl
    case known => rfl
    case bounded => rfl
  obtain ⟨detail, -, answered⟩ := chunks 77 Receiver.obstructedShard
    { store := Receiver.littered } {} _ alteredFour _ _ fourOctets 2 expects rfl
    ⟨by decide, 9, rfl⟩
  obtain ⟨replied, failed, cleared⟩ := answered 1 77 Receiver.obstructedShard 0
  refine ⟨unreadable, staged, ⟨detail, replied⟩, failed, ?_⟩
  unfold announcedAmongLitter bringsAltered
  exact cleared Receiver.wellNamed_littered _ (Store.isTempOf_tempName 77 "a")

/-- The recovery has been given up before the chunk comes. -/
def calledOff : Receiver :=
  (announcedAmongLitter.handle (.cancel 77 Receiver.obstructedShard "enough")).2

/-- A shard to which two files have been announced. Its store has got a file by another way,
with a name that the store does not accept. -/
def announcedBesideForeign : Receiver :=
  let files := (∅ : Std.ExtTreeMap String Content).insert "recovery.77.Z\\x" (.ofBytes [])
  (Receiver.mk { recovery := 77, shard := Receiver.obstructedShard } { store.files := files } {}
    |>.handleAll [.step 0 77 Receiver.obstructedShard (.announce ⟨["a", "b"], [4, 1], [], []⟩ 0)]).2

/-- A recovery that is over refuses the chunk, as it refuses any other. And if the store has
a file that it cannot delete, the removal of the temporary files ends there. -/
theorem corruption_exceptions :
    fourOctets.DiffersOnlyAt alteredFour.content 2 ∧
    alteredFour.checksum = checksum fourOctets ∧
    (∃ incoming, calledOff.target.incoming["a"]? = some incoming ∧ incoming.isVerified = false ∧
      ∃ error, error.kind = .protocolViolation ∧
        ((Receiving.transfer alteredFour).start calledOff).1 = .error error) ∧
    (announcedBesideForeign.handle bringsAltered).2.phase = .failed ∧
    ((announcedBesideForeign.handle bringsAltered).2.copy.store.files[
      Store.tempName 77 "b"]?).isSome = true := by
  refine ⟨⟨by decide, 9, rfl⟩, rfl, ⟨_, rfl, rfl, ?refused⟩, ?failed, ?remains⟩
  case refused =>
    obtain ⟨error, kind, ran⟩ := Receiving.transfer_refused
      (show calledOff.phase ≠ .files by decide +kernel) alteredFour
    exact ⟨error, kind, by rw [ran]⟩
  case failed => decide +kernel
  case remains => decide +kernel

end Recovery

end ShardSync
