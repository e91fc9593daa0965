import Mathlib.Data.Finset.Card
import Mathlib.Order.Interval.Finset.Nat
import ShardSync.Proofs.Recovery.Reached
import ShardSync.Proofs.Store.Listing
import ShardSync.Recovery.Source.Chunks

/-!
# Assembling files from chunks

Every octet of a file belongs to one chunk, whose position can be told from that
of the octet. A file that is being received agrees with the source on the octets
of all chunks that were written, and as many octets are counted as these chunks
have. So the order of the chunks is of no account, and when all octets are
counted the file is the source's.
-/

set_option autoImplicit false

namespace ShardSync

namespace Bytes

theorem length_overwrite {content data : Bytes} {position : Nat}
    (inside : position + data.length ≤ content.length) :
    (content.overwrite position data).length = content.length := by
  unfold overwrite
  split
  · rfl
  · simp only [List.length_append, length_resize, List.length_drop]
    omega

/-- Overwriting a part of a byte string replaces its octets one by one. -/
theorem getElem?_overwrite {content data : Bytes} {position : Nat}
    (inside : position + data.length ≤ content.length) (index : Nat) :
    (content.overwrite position data)[index]? =
      if position ≤ index ∧ index < position + data.length then data[index - position]?
      else content[index]? := by
  unfold overwrite
  by_cases empty : data.isEmpty = true
  · have none : data.length = 0 := by simpa using empty
    rw [if_pos empty, if_neg (by omega)]
  · have kept : content.resize position = content.take position := by
      simp [resize, show position - content.length = 0 by omega]
    rw [if_neg empty, kept, List.append_assoc, List.getElem?_append, List.getElem?_append,
      List.length_take, Nat.min_eq_left (by omega)]
    by_cases before : index < position
    · rw [if_pos before, if_neg (by omega), List.getElem?_take_of_lt before]
    · by_cases behind : index < position + data.length
      · rw [if_neg before, if_pos (by omega), if_pos (by omega)]
      · rw [if_neg before, if_neg (by omega), if_neg (by omega), List.getElem?_drop]
        congr 1
        omega

theorem getElem?_slice (content : Bytes) (position count index : Nat) :
    (content.slice position count)[index]? =
      if index < count then content[position + index]? else none := by
  rw [slice, List.getElem?_take, List.getElem?_drop]

theorem length_slice {content : Bytes} {position count : Nat}
    (inside : position + count ≤ content.length) :
    (content.slice position count).length = count := by
  rw [slice, List.length_take, List.length_drop]
  omega

end Bytes

namespace Recovery

/-- The octets of a file whose chunks begin at the given positions. -/
def covered (size length : Nat) (positions : Std.ExtTreeSet Nat) : Finset Nat :=
  (Finset.range length).filter fun index => index / size * size ∈ positions

theorem mem_covered_iff {size length index : Nat} {positions : Std.ExtTreeSet Nat} :
    index ∈ covered size length positions ↔
      index < length ∧ index / size * size ∈ positions := by
  rw [covered, Finset.mem_filter, Finset.mem_range]

/-- An octet belongs to the chunk in whose range it lies. -/
theorem div_mul_eq_iff {size position index : Nat} (positive : 0 < size)
    (aligned : size ∣ position) :
    index / size * size = position ↔ position ≤ index ∧ index < position + size := by
  obtain ⟨count, rfl⟩ := aligned
  rw [Nat.mul_comm, Nat.mul_right_inj (by omega), Nat.div_eq_iff positive]
  constructor
  · rintro ⟨first, last⟩
    constructor
    · rw [Nat.mul_comm]
      exact first
    · rw [Nat.mul_comm size]
      omega
  · rintro ⟨first, last⟩
    rw [Nat.mul_comm size] at first last
    omega

/-- A chunk that is written for the first time adds its own octets. -/
theorem card_covered_insert {size length position : Nat} {positions : Std.ExtTreeSet Nat}
    (positive : 0 < size) (aligned : size ∣ position) (absent : position ∉ positions) :
    (covered size length (positions.insert position)).card =
      (covered size length positions).card + min size (length - position) := by
  have split : covered size length (positions.insert position) =
      covered size length positions ∪ Finset.Ico position (min length (position + size)) := by
    ext index
    rw [Finset.mem_union, mem_covered_iff, mem_covered_iff, Finset.mem_Ico,
      Std.ExtTreeSet.mem_insert, Std.LawfulEqCmp.compare_eq_iff_eq, eq_comm,
      div_mul_eq_iff positive aligned, lt_min_iff]
    tauto
  have apart : Disjoint (covered size length positions)
      (Finset.Ico position (min length (position + size))) := by
    rw [Finset.disjoint_left]
    intro index before inside
    rw [Finset.mem_Ico, lt_min_iff] at inside
    rw [mem_covered_iff, (div_mul_eq_iff positive aligned).mpr ⟨inside.1, inside.2.2⟩] at before
    exact absent before.2
  rw [split, Finset.card_union_of_disjoint apart, Nat.card_Ico]
  omega

theorem covered_empty (size length : Nat) : covered size length ∅ = ∅ := by
  ext index
  simp [mem_covered_iff]

/-- As many octets as the file has are all of them. -/
theorem mem_of_card_covered {size length index : Nat} {positions : Std.ExtTreeSet Nat}
    (all : (covered size length positions).card = length) (inside : index < length) :
    index / size * size ∈ positions := by
  have whole : covered size length positions = Finset.range length := by
    refine Finset.eq_of_subset_of_card_le (Finset.filter_subset _ _) ?_
    rw [Finset.card_range]
    exact all.ge
  have member : index ∈ covered size length positions := by
    rw [whole]
    exact Finset.mem_range.mpr inside
  exact (mem_covered_iff.mp member).2

namespace Piece

theorem mem_cutFrom {size position : Nat} {file : FileMetadata} {piece : Piece}
    (inside : position ≤ file.length.toNat) (aligned : max size 1 ∣ position)
    (member : piece ∈ cutFrom size file position) :
    piece.file = file ∧ piece.position ≤ file.length.toNat ∧ max size 1 ∣ piece.position ∧
      piece.length = min (max size 1) (file.length.toNat - piece.position) := by
  fun_induction cutFrom size file position with
  | case1 position rest last =>
      cases List.mem_singleton.mp member
      refine ⟨rfl, inside, aligned, ?_⟩
      dsimp only
      omega
  | case2 position rest further ih =>
      cases List.mem_cons.mp member with
      | inl first =>
          cases first
          refine ⟨rfl, inside, aligned, ?_⟩
          dsimp only
          omega
      | inr later =>
          exact ih (by omega) (Nat.dvd_add aligned (Nat.dvd_refl _)) later

/-- The pieces of a file lie side by side. -/
theorem mem_cut {size : Nat} {file : FileMetadata} {piece : Piece}
    (member : piece ∈ cut size file) :
    piece.file = file ∧ piece.position ≤ file.length.toNat ∧ max size 1 ∣ piece.position ∧
      piece.length = min (max size 1) (file.length.toNat - piece.position) :=
  mem_cutFrom (Nat.zero_le _) (Nat.dvd_zero _) member

theorem chunk_eq_ok_iff {piece : Piece} {store : Store} {chunk : Chunk} :
    piece.chunk store = .ok chunk ↔
      ∃ content, store.content piece.file.name = .ok content ∧
        piece.position + piece.length ≤ content.length ∧
        chunk = {
          file := piece.file
          position := .ofNat piece.position
          content := content.toBytes.slice piece.position piece.length
          isLast := piece.isLast
          checksum := checksum (content.toBytes.slice piece.position piece.length) } := by
  unfold Piece.chunk Store.readChunk
  cases store.content piece.file.name with
  | error error => simp [bind, Except.bind]
  | ok content =>
      by_cases inside : piece.position + piece.length ≤ content.length
      · simp [bind, Except.bind, pure, Except.pure, inside, Nat.not_lt.mpr inside, eq_comm]
      · simp [bind, Except.bind, inside, Nat.not_le.mp inside, throw, throwThe,
          MonadExceptOf.throw]

end Piece

theorem Incoming.describe_eq_ok {incoming described : Incoming} {file : FileMetadata}
    (known : incoming.describe file = .ok described) :
    described = { incoming with file? := some file } := by
  unfold describe at known
  split at known
  · cases known
  · split at known
    · next before found =>
        split at known
        · next same =>
            cases known
            rw [← same, ← found]
        · cases known
    · cases known
      rfl

/-- What a chunk does to the file that it belongs to. -/
inductive Enters (chunk : Chunk) (incoming : Incoming) (before : Store) :
    Incoming → Store → Prop where
  | again (member : chunk.position.toNat ∈ incoming.positions) :
      Enters chunk incoming before incoming before
  | fresh {after : Store} (new : chunk.position.toNat ∉ incoming.positions)
      (written : before.writeAt incoming.tempName chunk.position.toNat chunk.content = .ok after) :
      Enters chunk incoming before (incoming.take chunk) after

/-- What becomes of a file when one of its chunks is taken. -/
inductive Takes (chunk : Chunk) (incoming : Incoming) (before : Store) :
    Incoming → Store → Prop where
  | ended (verified : incoming.isVerified = true) : Takes chunk incoming before incoming before
  | going {entry : Incoming} {after : Store}
      (pending : incoming.isVerified = false)
      (enters : Enters chunk { incoming with file? := some chunk.file } before entry after)
      (lacking : entry.isComplete = false) :
      Takes chunk incoming before entry after
  | completed {entry : Incoming} {after : Store} (pending : incoming.isVerified = false)
      (enters : Enters chunk { incoming with file? := some chunk.file } before entry after)
      (whole : entry.isComplete = true)
      (checked : after.verify entry.tempName chunk.file = .ok ()) :
      Takes chunk incoming before { entry with isVerified := true } after

namespace Receiving

theorem writeChunk_enters {incoming entry : Incoming} {chunk : Chunk} {receiver final : Receiver}
    (ran : (writeChunk incoming chunk).start receiver = (.ok entry, final)) :
    Enters chunk incoming receiver.copy.store entry final.copy.store := by
  unfold writeChunk at ran
  split at ran
  · next member =>
      obtain ⟨same, unchanged⟩ := pure_ok ran
      rw [unchanged, ← same]
      exact .again member
  · next new =>
      obtain ⟨_, written, wrote, ran⟩ := bind_ok ran
      obtain ⟨_, noted, entered, ran⟩ := bind_ok ran
      obtain ⟨same, unchanged⟩ := pure_ok ran
      rw [start_onStore] at wrote
      simp only [setIncoming, start_modifyTarget, Prod.mk.injEq, true_and] at entered
      split at wrote
      · next after stored =>
          simp only [Prod.mk.injEq, true_and] at wrote
          rw [unchanged, ← same, ← entered, ← wrote]
          exact .fresh (fun member => new member) stored
      · cases wrote

theorem verify_checked {incoming : Incoming} {file : FileMetadata} {receiver final : Receiver}
    (ran : (verify incoming file).start receiver = (.ok (), final)) :
    receiver.copy.store.verify incoming.tempName file = .ok () ∧
      final.copy.store = receiver.copy.store := by
  unfold verify at ran
  rw [start_get_bind] at ran
  split at ran
  · rw [start_bind_of_ok (start_count _ _), start_bind_of_ok (start_log _ _ _)] at ran
    obtain ⟨_, _, _, ran⟩ := bind_ok ran
    cases ran
  · next checked =>
      obtain ⟨_, noted, entered, ran⟩ := bind_ok ran
      simp only [setIncoming, start_modifyTarget, Prod.mk.injEq, true_and] at entered
      rw [start_bind_of_ok (start_modifyProgress _ _), start_log] at ran
      simp only [Prod.mk.injEq, true_and] at ran
      rw [← ran, ← entered]
      exact ⟨checked, rfl⟩

/-- A chunk that is taken changes its own file and no other. -/
theorem transfer_takes {chunk : Chunk} {reply : Reply} {receiver final : Receiver}
    (ran : (transfer chunk).start receiver = (.ok reply, final)) :
    ∃ incoming entry, receiver.target.incoming[chunk.file.name]? = some incoming ∧
      Sets chunk.file.name entry receiver final ∧
      Takes chunk incoming receiver.copy.store entry final.copy.store := by
  unfold transfer at ran
  rw [start_get_bind] at ran
  obtain ⟨_, _, ran⟩ := check_bind_ok ran
  split at ran
  · cases ran
  · next incoming found =>
      split at ran
      · next pending =>
          obtain ⟨described, known, ran⟩ := check_bind_ok ran
          obtain ⟨_, noted, entered, ran⟩ := bind_ok ran
          obtain ⟨_, _, ran⟩ := check_bind_ok ran
          obtain ⟨_, checked, compared, ran⟩ := bind_ok ran
          have noting := sets_setIncoming entered
          have kept : noted.copy.store = receiver.copy.store := by
            simp only [setIncoming, start_modifyTarget, Prod.mk.injEq, true_and] at entered
            rw [← entered]
          rw [checkContent_ok compared] at ran
          obtain ⟨written, wrote, writing, ran⟩ := bind_ok ran
          obtain ⟨_, _, sets⟩ := writeChunk_ok noting.1 writing
          have sets := noting.trans sets
          have enters := writeChunk_enters writing
          rw [kept, Incoming.describe_eq_ok known] at enters
          have pending : incoming.isVerified = false := by simpa using pending
          split at ran
          · next whole =>
              obtain ⟨_, verified, verifying, ran⟩ := bind_ok ran
              obtain ⟨valid, same⟩ := verify_checked verifying
              rw [(pure_ok ran).2]
              refine ⟨incoming, _, found, sets.trans (verify_ok verifying), ?_⟩
              rw [same]
              exact .completed pending enters whole valid
          · next lacking =>
              rw [(pure_ok ran).2]
              exact ⟨incoming, written, found, sets,
                .going pending enters (by simpa using lacking)⟩
      · next ended =>
          rw [(pure_ok ran).2]
          exact ⟨incoming, incoming, found, Sets.refl found, .ended (by simpa using ended)⟩

end Receiving

/-- A file that is being received agrees with the source on all that was written
of it, and is counted right. A verified one is complete. -/
structure Filled (size : Nat) (source : Bytes) (file : FileMetadata) (incoming : Incoming)
    (content : Content) : Prop where
  length : incoming.length = file.length.toNat
  sized : content.length = file.length.toNat
  described : ∀ known ∈ incoming.file?, known = file
  written : ∀ index < file.length.toNat,
    index / max size 1 * max size 1 ∈ incoming.positions →
      content.toBytes[index]? = source[index]?
  counted : incoming.received =
    (covered (max size 1) file.length.toNat incoming.positions).card
  verified : incoming.isVerified = true →
    incoming.received = file.length.toNat ∧ FileMetadata.ofContent file.name content = file

namespace Filled

variable {size : Nat} {source : Bytes} {file : FileMetadata} {incoming : Incoming}
  {content : Content}

theorem blank (size : Nat) (source : Bytes) (file : FileMetadata) (tempName : String) :
    Filled size source file { tempName, length := file.length.toNat }
      (.blank file.length.toNat) where
  length := rfl
  sized := by simp [← Content.length_toBytes]
  described known member := by cases member
  written index inside member := by simp at member
  counted := by simp [covered_empty]
  verified ended := by cases ended

theorem describe (filled : Filled size source file incoming content) :
    Filled size source file { incoming with file? := some file } content where
  length := filled.length
  sized := filled.sized
  described known member := by
    cases member
    rfl
  written := filled.written
  counted := filled.counted
  verified := filled.verified

/-- All octets of a verified file are those of the source. -/
theorem toBytes (filled : Filled size source file incoming content)
    (verified : incoming.isVerified = true) :
    content.toBytes = source.take file.length.toNat := by
  have all := filled.counted.symm.trans (filled.verified verified).1
  have length : content.toBytes.length = file.length.toNat :=
    (Content.length_toBytes content).trans filled.sized
  apply List.ext_getElem?
  intro index
  rw [List.getElem?_take]
  split
  · next inside => exact filled.written index inside (mem_of_card_covered all inside)
  · next outside => exact List.getElem?_eq_none (by omega)

/-- A chunk that is written for the first time brings the octets of the source. -/
theorem take {chunk : Chunk} (filled : Filled size source file incoming content)
    (pending : incoming.isVerified = false) (new : chunk.position.toNat ∉ incoming.positions)
    (aligned : max size 1 ∣ chunk.position.toNat)
    (sized : chunk.content.length = min (max size 1) (file.length.toNat - chunk.position.toNat))
    (inside : chunk.position.toNat ≤ file.length.toNat)
    (brought : ∀ index < chunk.content.length,
      chunk.content[index]? = source[chunk.position.toNat + index]?) :
    Filled size source file (incoming.take chunk)
      (content.overwrite chunk.position.toNat chunk.content) := by
  have fits : chunk.position.toNat + chunk.content.length ≤ content.toBytes.length := by
    rw [Content.length_toBytes, filled.sized]
    omega
  constructor
  case length => exact filled.length
  case sized =>
    rw [← Content.length_toBytes, Content.toBytes_overwrite, Bytes.length_overwrite fits,
      Content.length_toBytes, filled.sized]
  case described => exact filled.described
  case written =>
    intro index lies member
    rw [Content.toBytes_overwrite, Bytes.getElem?_overwrite fits]
    split
    · next within =>
        rw [brought _ (by omega)]
        congr 1
        omega
    · next outside =>
        apply filled.written index lies
        cases Std.ExtTreeSet.mem_insert.mp member with
        | inr before => exact before
        | inl same =>
            have range := (div_mul_eq_iff (by omega) aligned).mp
              (Std.LawfulEqCmp.compare_eq_iff_eq.mp same).symm
            omega
  case counted =>
    change incoming.received + chunk.content.length = _
    rw [filled.counted, sized]
    exact (card_covered_insert (by omega) aligned new).symm
  case verified =>
    intro ended
    have ended : incoming.isVerified = true := ended
    rw [pending] at ended
    cases ended

theorem enters {chunk : Chunk} {before after : Store} {entry : Incoming}
    (filled : Filled size source file incoming content)
    (there : before.files[incoming.tempName]? = some content)
    (pending : incoming.isVerified = false)
    (aligned : max size 1 ∣ chunk.position.toNat)
    (sized : chunk.content.length = min (max size 1) (file.length.toNat - chunk.position.toNat))
    (inside : chunk.position.toNat ≤ file.length.toNat)
    (brought : ∀ index < chunk.content.length,
      chunk.content[index]? = source[chunk.position.toNat + index]?)
    (enters : Enters chunk incoming before entry after) :
    entry.tempName = incoming.tempName ∧ entry.isVerified = false ∧
      (∀ name, name ≠ incoming.tempName → after.files[name]? = before.files[name]?) ∧
      ∃ content, after.files[incoming.tempName]? = some content ∧
        Filled size source file entry content := by
  cases enters with
  | again known => exact ⟨rfl, pending, fun _ _ => rfl, content, there, filled⟩
  | fresh new written =>
      obtain ⟨found, read, rfl⟩ := Store.writeAt_eq_ok_iff.mp written
      obtain ⟨valid, known⟩ := Store.content_eq_ok_iff.mp read
      rw [there, Option.some.injEq] at known
      subst known
      refine ⟨rfl, pending, fun name other => ?_, _, Std.ExtTreeMap.getElem?_insert_self,
        filled.take pending new aligned sized inside brought⟩
      have other : compare incoming.tempName name ≠ .eq :=
        fun same => other (Std.LawfulEqOrd.eq_of_compare same).symm
      simp [Std.ExtTreeMap.getElem?_insert, other]

end Filled

/-- What the pieces of a file are sent as. -/
theorem Piece.sent {size : Nat} {source : Bytes} {file : FileMetadata} {piece : Piece}
    {chunk : Chunk} {store : Store} (member : piece ∈ cut size file)
    (made : piece.chunk store = .ok chunk)
    (sourced : ∀ content, store.content file.name = .ok content → content.toBytes = source) :
    chunk.file = file ∧ max size 1 ∣ chunk.position.toNat ∧
      chunk.content.length = min (max size 1) (file.length.toNat - chunk.position.toNat) ∧
      chunk.position.toNat ≤ file.length.toNat ∧
      ∀ index < chunk.content.length,
        chunk.content[index]? = source[chunk.position.toNat + index]? := by
  obtain ⟨original, read, inside, rfl⟩ := chunk_eq_ok_iff.mp made
  obtain ⟨rfl, position, aligned, length⟩ := mem_cut member
  have small : piece.position < UInt64.size :=
    Nat.lt_of_le_of_lt position piece.file.length.toNat_lt_size
  have placed : (UInt64.ofNat piece.position).toNat = piece.position :=
    UInt64.toNat_ofNat_of_lt small
  rw [← Content.length_toBytes] at inside
  rw [sourced original read] at inside ⊢
  have taken := Bytes.length_slice inside
  simp only [placed, taken]
  refine ⟨trivial, aligned, length, position, fun index lies => ?_⟩
  rw [Bytes.getElem?_slice, if_pos lies]

/-- A chunk of a piece of the file keeps it filled from the source. -/
theorem Filled.takes {size : Nat} {source : Bytes} {file : FileMetadata} {incoming entry : Incoming}
    {content : Content} {piece : Piece} {chunk : Chunk} {store before after : Store}
    (filled : Filled size source file incoming content)
    (there : before.files[incoming.tempName]? = some content) (member : piece ∈ Piece.cut size file)
    (made : piece.chunk store = .ok chunk)
    (sourced : ∀ content, store.content file.name = .ok content → content.toBytes = source)
    (takes : Takes chunk incoming before entry after) :
    entry.tempName = incoming.tempName ∧
      (∀ name, name ≠ incoming.tempName → after.files[name]? = before.files[name]?) ∧
      ∃ content, after.files[incoming.tempName]? = some content ∧
        Filled size source file entry content := by
  obtain ⟨named, aligned, sized, inside, brought⟩ := Piece.sent member made sourced
  cases takes with
  | ended verified => exact ⟨rfl, fun _ _ => rfl, content, there, filled⟩
  | going pending enters lacking =>
      rw [named] at enters
      obtain ⟨stored, _, others, written⟩ :=
        filled.describe.enters there pending aligned sized inside brought enters
      exact ⟨stored, others, written⟩
  | @completed entry _ pending enters whole checked =>
      rw [named] at enters checked
      obtain ⟨stored, _, others, found, known, written⟩ :=
        filled.describe.enters there pending aligned sized inside brought enters
      refine ⟨stored, others, found, known, ?_⟩
      refine ⟨written.length, written.sized, written.described, written.written, written.counted,
        fun _ => ?_⟩
      obtain ⟨actual, measured, length, checksum⟩ := Store.verify_eq_ok_iff.mp checked
      obtain ⟨_, content, there, rfl⟩ := Store.metadata_eq_ok_iff.mp measured
      rw [stored, known, Option.some.injEq] at there
      subst there
      obtain ⟨name, _, _⟩ := file
      cases length
      cases checksum
      refine ⟨?_, rfl⟩
      simp only [Incoming.isComplete, Bool.and_eq_true, beq_iff_eq] at whole
      exact whole.1.trans written.length

end Recovery

end ShardSync
