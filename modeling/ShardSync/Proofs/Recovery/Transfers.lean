import ShardSync.Proofs.Recovery.Assembly

/-!
# Chunks that are not taken

A chunk that is refused may have been noted, and even written, before. Only the file that
it belongs to is touched.
-/

set_option autoImplicit false

namespace ShardSync.Recovery

namespace Request

/-- The chunk that a request brings. -/
def chunk? : Request → Option Chunk
  | .step _ _ _ (.transfer chunk _) => some chunk
  | _ => none

theorem exists_of_chunk? {request : Request} {chunk : Chunk}
    (asked : request.chunk? = some chunk) :
    ∃ number recovery shard totalOps,
      request = .step number recovery shard (.transfer chunk totalOps) := by
  unfold chunk? at asked
  split at asked
  · next number recovery shard sent totalOps =>
      cases asked
      exact ⟨number, recovery, shard, totalOps, rfl⟩
  · cases asked

end Request

/-- A file is removed if it can be, and otherwise stays. -/
inductive Discards (name : String) (before : Store) : Store → Prop where
  | kept : Discards name before before
  | removed {after : Store} (deleted : before.delete name = .ok after) :
      Discards name before after

theorem Incoming.checkBounds_ok {incoming : Incoming} {chunk : Chunk}
    (bounded : incoming.checkBounds chunk = .ok ()) :
    chunk.position.toNat + chunk.content.length ≤ incoming.length := by
  unfold checkBounds at bounded
  split at bounded
  · assumption
  · cases bounded

/-- What becomes of a file when one of its chunks is not taken. -/
inductive Spoils (chunk : Chunk) (incoming : Incoming) (before : Store) :
    Incoming → Store → Prop where
  | undescribed {error : Error} (refused : incoming.describe chunk.file = .error error) :
      Spoils chunk incoming before incoming before
  | outside {described : Incoming} (known : incoming.describe chunk.file = .ok described)
      (beyond : incoming.length < chunk.position.toNat + chunk.content.length) :
      Spoils chunk incoming before described before
  | damaged {described : Incoming} {after : Store}
      (known : incoming.describe chunk.file = .ok described)
      (differs : checksum chunk.content ≠ chunk.checksum)
      (discards : Discards described.tempName before after) :
      Spoils chunk incoming before described after
  | unwritten {described : Incoming} {error : StoreError}
      (known : incoming.describe chunk.file = .ok described)
      (refused : before.writeAt described.tempName chunk.position.toNat chunk.content =
        .error error) :
      Spoils chunk incoming before described before
  | unverified {described entry : Incoming} {between after : Store} {error : StoreError}
      (known : incoming.describe chunk.file = .ok described)
      (within : chunk.position.toNat + chunk.content.length ≤ incoming.length)
      (enters : Enters chunk described before entry between)
      (whole : entry.isComplete = true)
      (refused : between.verify entry.tempName chunk.file = .error error)
      (discards : Discards entry.tempName between after) :
      Spoils chunk incoming before entry after

namespace Receiving

theorem start_discard (incoming : Incoming) (receiver : Receiver) :
    ∃ final, (discard incoming).start receiver = (.ok (), final) ∧
      final.target = receiver.target ∧
      Discards incoming.tempName receiver.copy.store final.copy.store := by
  simp only [discard, start_get_bind]
  cases deleted : receiver.copy.store.delete incoming.tempName with
  | ok store => exact ⟨_, rfl, rfl, .removed deleted⟩
  | error error => exact ⟨_, rfl, rfl, .kept⟩

theorem checkContent_error {incoming : Incoming} {chunk : Chunk} {error : Error}
    {receiver final : Receiver}
    (ran : (checkContent incoming chunk).start receiver = (.error error, final)) :
    checksum chunk.content ≠ chunk.checksum ∧ final.target = receiver.target ∧
      Discards incoming.tempName receiver.copy.store final.copy.store := by
  unfold checkContent at ran
  dsimp only at ran
  split at ran
  · next differs =>
      rw [start_bind_of_ok (start_count _ _), start_bind_of_ok (start_log _ _ _)] at ran
      obtain ⟨discarded, started, target, discards⟩ := start_discard incoming { receiver with
        journal := _ }
      rw [start_bind_of_ok started] at ran
      cases ran
      exact ⟨differs, target, discards⟩
  · cases ran

theorem writeChunk_error {incoming : Incoming} {chunk : Chunk} {error : Error}
    {receiver final : Receiver}
    (ran : (writeChunk incoming chunk).start receiver = (.error error, final)) :
    final = receiver ∧ ∃ error, receiver.copy.store.writeAt incoming.tempName
      chunk.position.toNat chunk.content = .error error := by
  unfold writeChunk at ran
  split at ran
  · cases ran
  · rcases bind_error ran with wrote | ⟨_, written, _, ran⟩
    · rw [start_onStore] at wrote
      split at wrote
      · cases wrote
      · next refused =>
          cases wrote
          exact ⟨rfl, _, refused⟩
    · rcases bind_error ran with entered | ⟨_, _, _, ran⟩
      · cases entered
      · cases ran

theorem verify_error {incoming : Incoming} {file : FileMetadata} {error : Error}
    {receiver final : Receiver}
    (ran : (verify incoming file).start receiver = (.error error, final)) :
    (∃ error, receiver.copy.store.verify incoming.tempName file = .error error) ∧
      final.target = receiver.target ∧
      Discards incoming.tempName receiver.copy.store final.copy.store := by
  unfold verify at ran
  rw [start_get_bind] at ran
  split at ran
  · next refused =>
      rw [start_bind_of_ok (start_count _ _), start_bind_of_ok (start_log _ _ _)] at ran
      obtain ⟨discarded, started, target, discards⟩ := start_discard incoming { receiver with
        journal := _ }
      rw [start_bind_of_ok started] at ran
      cases ran
      exact ⟨⟨_, refused⟩, target, discards⟩
  · rw [setIncoming, start_bind_of_ok (start_modifyTarget _ _),
      start_bind_of_ok (start_modifyProgress _ _), start_log] at ran
    cases ran

/-- A chunk that is not taken belongs to no file that is being received, or is one of a
file that is not complete. -/
theorem transfer_spoils {chunk : Chunk} {error : Error} {receiver final : Receiver}
    (ran : (transfer chunk).start receiver = (.error error, final)) :
    (final = receiver ∧
      (receiver.phase ≠ .files ∨ receiver.target.incoming[chunk.file.name]? = none)) ∨
    ∃ incoming entry, receiver.target.incoming[chunk.file.name]? = some incoming ∧
      incoming.isVerified = false ∧ Sets chunk.file.name entry receiver final ∧
      Spoils chunk incoming receiver.copy.store entry final.copy.store := by
  unfold transfer at ran
  rw [start_get_bind, start_bind, start_check] at ran
  cases expected : receiver.target.progress.expect .files with
  | error error =>
      rw [expected] at ran
      cases ran
      have elsewhere : receiver.phase ≠ .files := fun inFiles =>
        absurd (expected.symm.trans (if_pos inFiles)) nofun
      exact .inl ⟨rfl, .inl elsewhere⟩
  | ok met =>
  rw [expected] at ran
  dsimp only at ran
  split at ran
  · next unknown =>
      cases ran
      exact .inl ⟨rfl, .inr unknown⟩
  · next incoming found =>
      split at ran
      · next pending =>
          have pending : incoming.isVerified = false := by simpa using pending
          refine .inr ?_
          suffices ∃ entry, Sets chunk.file.name entry receiver final ∧
              Spoils chunk incoming receiver.copy.store entry final.copy.store by
            obtain ⟨entry, sets, spoils⟩ := this
            exact ⟨incoming, entry, found, pending, sets, spoils⟩
          rw [start_bind, start_check] at ran
          cases known : incoming.describe chunk.file with
          | error error =>
              rw [known] at ran
              cases ran
              exact ⟨incoming, .refl found, .undescribed known⟩
          | ok described =>
          rw [known] at ran
          dsimp only at ran
          have length : described.length = incoming.length := by
            rw [Incoming.describe_eq_ok known]
          rw [setIncoming, start_bind_of_ok (start_modifyTarget _ _), start_bind, start_check]
            at ran
          have noted := sets_setIncoming
            (rfl : (setIncoming chunk.file.name described).start receiver = (.ok (), _))
          cases bounded : described.checkBounds chunk with
          | error error =>
              rw [bounded] at ran
              cases ran
              have beyond : ¬ _ ≤ described.length := fun within =>
                absurd (bounded.symm.trans (if_pos within)) nofun
              exact ⟨described, noted, .outside known (by omega)⟩
          | ok met =>
          have within := length ▸ Incoming.checkBounds_ok bounded
          rw [bounded] at ran
          rcases bind_error ran with compared | ⟨_, _, compared, ran⟩
          · obtain ⟨differs, target, discards⟩ := checkContent_error compared
            refine ⟨described, ?_, .damaged known differs discards⟩
            rwa [Sets, target]
          rw [checkContent_ok compared] at ran
          rcases bind_error ran with writing | ⟨entry, written, writing, ran⟩
          · obtain ⟨rfl, error, refused⟩ := writeChunk_error writing
            exact ⟨described, noted, .unwritten known refused⟩
          have enters := writeChunk_enters writing
          have sets := noted.trans (writeChunk_ok noted.1 writing).2.2
          split at ran
          · next whole =>
              rcases bind_error ran with verifying | ⟨_, _, _, ran⟩
              · obtain ⟨⟨error, refused⟩, target, discards⟩ := verify_error verifying
                refine ⟨entry, ?_, .unverified known within enters whole refused discards⟩
                rwa [Sets, target]
              · cases ran
          · cases ran
      · cases ran

end Receiving

end ShardSync.Recovery
