import ShardSync.Proofs.Outcome
import ShardSync.Proofs.Segment.Bounds

/-!
# Segments and their files

A segment is read back from its file as it was, whether it was sealed, had positions
deleted, or came from another file. That file need not be the one that is written now:
the order of its ids, spare bits of its mask and spare groups of its numbers do not
show in the segment.
-/

set_option autoImplicit false

namespace ShardSync

open Wire Reader

namespace Wire.Reads

theorem lift {α : Type} {reader : Reader α} {input rest : Bytes} {readable : Prop}
    {value : α} (reads : Reads reader input readable value rest) :
    Reads (monadLift reader : Segment.FileReader α) input readable value rest where
  takes fits := by
    change ((reader.run.run input).1.mapError _, (reader.run.run input).2) = _
    rw [reads.takes fits]
    rfl
  fails lacking := by
    obtain ⟨error, left, failed⟩ := reads.fails lacking
    refine ⟨.undecodable error, left, ?_⟩
    change ((reader.run.run input).1.mapError _, (reader.run.run input).2) = _
    rw [failed]
    rfl

/-- A check that the written value passes. -/
theorem guarded {β : Type} {condition readable : Prop} [Decidable condition]
    {error : SegmentError} {next : Unit → Segment.FileReader β} {input rest : Bytes} {value : β}
    (passed : ¬ condition) (reads : Reads (next ()) input readable value rest) :
    Reads (if condition then MonadExcept.throw error >>= next else next ()) input readable
      value rest := by
  rwa [if_neg passed]

/-- A check that the written value does not pass. -/
theorem refused {β : Type} {condition : Prop} [Decidable condition] {error : SegmentError}
    {next : Unit → Segment.FileReader β} {input rest : Bytes} {value : β}
    (failed : condition) :
    Reads (if condition then MonadExcept.throw error >>= next else next ()) input False
      value rest := by
  rw [if_pos failed]
  exact ⟨fun never => never.elim, fun _ => ⟨error, input, rfl⟩⟩

end Wire.Reads

namespace Segment

theorem reads_optional {α : Type} {reader : FileReader α} {write : α → Bytes}
    {readable : α → Prop} {value? : Option α} {rest : Bytes}
    (item : ∀ value ∈ value?, Reads reader (write value ++ rest) (readable value) value rest) :
    Reads (readOptional reader) (writeOptional write value? ++ rest)
      (∀ value ∈ value?, readable value) value? rest := by
  cases value? with
  | none =>
      refine (Reads.bind (Reads.lift ((recovers_bool false).reads rest)) fun _ =>
        .pure none rest).of_iff ?_
      simp
  | some value =>
      rw [writeOptional, List.append_assoc]
      refine (Reads.bind (Reads.lift ((recovers_bool true).reads (write value ++ rest)))
        fun _ => .bind (item value rfl) fun _ => .pure (some value) rest).of_iff ?_
      simp

section Columns

theorem recovers_cell (cell : Option Int64) : Recovers readCell (writeCell cell) True cell := by
  cases cell with
  | none => exact ((recovers_bool false).bind (.pure none)).of_eq rfl (by simp)
  | some value =>
      refine ((recovers_bool true).bind ((recovers_i64 value).bind (.pure (some value)))).of_eq
        ?_ (by simp)
      rw [List.append_nil]
      rfl

/-- As many cells are read as the column has been written with. -/
theorem reads_readColumn {maxDoc : Nat} {column? : Option Column} (spans : Spans maxDoc column?)
    (rest : Bytes) :
    Reads (readOptional (readColumn maxDoc)) (writeOptional writeColumn column? ++ rest) True
      column? rest := by
  have item : ∀ column ∈ column?,
      Reads (readColumn maxDoc) (writeColumn column ++ rest) True column rest := by
    intro column held
    have each : ∀ cell ∈ column.cells, Recovers readCell (writeCell cell) True cell :=
      fun cell _ => recovers_cell cell
    have cells := (recovers_times each []).reads rest
    rw [spans column held] at cells
    exact (Reads.bind (.lift cells) fun _ => .pure column rest).of_iff (by simp)
  exact (reads_optional item).of_iff (by simp)

end Columns

section Identities

theorem toNat_toInt32 {value : Nat} (small : value < 2 ^ 31) :
    (UInt32.ofNat value).toInt32.toInt.toNat = value := by
  simp [Int.bmod]
  omega

theorem reads_readPositions {maxDoc : Nat} (few : maxDoc ≤ listLimit) {later earlier : List Nat}
    (listed : ArePostings maxDoc (earlier.reverse ++ later)) (rest : Bytes) :
    Reads (readPositions maxDoc later.length earlier) (later.flatMap groups ++ rest) True
      (earlier.reverse ++ later) rest := by
  induction later generalizing earlier with
  | nil =>
      rw [List.append_nil]
      exact .pure _ rest
  | cons position later ih =>
      obtain ⟨ordered, inside⟩ := listed
      have there : position < maxDoc := inside position (by simp)
      have small : position < 2 ^ 31 := Nat.lt_trans there (Nat.lt_of_le_of_lt few (by decide))
      have readable : position < UInt32.size := Nat.lt_trans small (by decide)
      have natural := toNat_toInt32 small
      have known : ¬ ((UInt32.ofNat position).toInt32 < 0 ∨
          maxDoc ≤ (UInt32.ofNat position).toInt32.toInt.toNat) := by
        rw [toInt32_neg_iff readable, natural]
        omega
      -- What has been read stands in reverse, so the highest position is in front.
      have ascends : ¬ earlier.head?.any (position ≤ ·) = true := by
        cases earlier with
        | nil => simp
        | cons highest earlier =>
            have above := (List.pairwise_append.mp ordered).2.2 highest (by simp) position (by simp)
            simpa using above
      have further := @ih (position :: earlier) (by simpa using ⟨ordered, inside⟩)
      rw [List.reverse_cons, List.append_assoc, List.singleton_append] at further
      rw [List.flatMap_cons, List.append_assoc, List.length_cons, readPositions]
      refine (Reads.bind (Reads.lift ((recovers_groups position).reads _)) fun _ =>
        .guarded known (?_ : Reads _ _ True _ _)).of_iff (by simpa using readable)
      dsimp only
      rw [natural]
      exact .guarded ascends further

theorem length_positions_le {maxDoc : Nat} {positions : List Nat}
    (listed : ArePostings maxDoc positions) : positions.length ≤ maxDoc := by
  have apart : positions.Nodup := listed.1.imp fun less => Nat.ne_of_lt less
  have inside : positions ⊆ List.range maxDoc := fun position member =>
    List.mem_range.mpr (listed.2 position member)
  simpa using (List.subperm_of_subset apart inside).length_le

theorem reads_readTerms {maxDoc : Nat} (few : maxDoc ≤ listLimit)
    {terms : List (Bytes × List Nat)} (listed : ∀ term ∈ terms, ArePostings maxDoc term.2)
    (ids : Std.ExtTreeMap Bytes (List Nat)) (rest : Bytes) :
    Reads (readTerms maxDoc terms.length ids) (terms.flatMap writeTerm ++ rest)
      (∀ term ∈ terms, term.1.length < 2 ^ 31)
      (terms.foldl (fun ids term => ids.insert term.1 term.2) ids) rest := by
  induction terms generalizing ids with
  | nil => exact (Reads.pure ids rest).of_iff (by simp)
  | cons term terms ih =>
      obtain ⟨first, later⟩ := List.forall_mem_cons.mp listed
      have short : term.2.length ≤ listLimit := Nat.le_trans (length_positions_le first) few
      have room (rest : Bytes) :
          term.2.length * max 1 1 ≤ (term.2.flatMap groups ++ rest).length := by
        have := length_flatMap_write fun position (_ : position ∈ term.2) =>
          length_groups_pos position
        rw [Nat.max_self, List.length_append]
        omega
      rw [List.flatMap_cons, List.append_assoc, writeTerm, List.append_assoc, Write.list,
        List.append_assoc]
      refine (Reads.bind (Reads.lift ((recovers_bytes term.1).reads _)) fun _ =>
        .bind (.lift (reads_count "postings" (room _))) fun _ =>
          .bind (reads_readPositions few (by simpa using first) _) fun _ => ih later _).of_iff ?_
      simp [short]

theorem foldl_insert_toList (ids : Std.ExtTreeMap Bytes (List Nat)) :
    ids.toList.foldl (fun ids term => ids.insert term.1 term.2) ∅ = ids := by
  rw [← Std.ExtTreeMap.ofList_eq_foldl]
  refine Std.ExtTreeMap.ext_getElem? fun id => ?_
  cases held : ids[id]? with
  | none =>
      refine Std.ExtTreeMap.getElem?_ofList_of_contains_eq_false ?_
      rw [← Bool.not_eq_true, List.contains_iff_mem]
      intro member
      obtain ⟨⟨other, positions⟩, listed, rfl⟩ := List.mem_map.mp member
      rw [Std.ExtTreeMap.mem_toList_iff_getElem?_eq_some, held] at listed
      cases listed
  | some positions =>
      exact Std.ExtTreeMap.getElem?_ofList_of_mem Std.ReflCmp.compare_self
        Std.ExtTreeMap.distinct_keys_toList
        (Std.ExtTreeMap.mem_toList_iff_getElem?_eq_some.mpr held)

theorem reads_readIds {maxDoc : Nat} (few : maxDoc ≤ listLimit)
    {ids : Std.ExtTreeMap Bytes (List Nat)}
    (listed : ∀ (id : Bytes) (positions : List Nat), ids[id]? = some positions →
      ArePostings maxDoc positions) (rest : Bytes) :
    Reads (readIds maxDoc) (writeIds ids ++ rest)
      (ids.size ≤ listLimit ∧ ∀ id : Bytes, id ∈ ids → id.length < 2 ^ 31) ids rest := by
  have terms : ∀ term ∈ ids.toList, ArePostings maxDoc term.2 := fun term member =>
    listed term.1 term.2 (Std.ExtTreeMap.mem_toList_iff_getElem?_eq_some.mp member)
  have large : ∀ term ∈ ids.toList, 2 ≤ (writeTerm term).length := by
    intro term _
    have name := length_groups_pos term.1.length
    have count := length_groups_pos term.2.length
    simp only [writeTerm, Write.bytes, Write.list, Write.count, List.length_append]
    omega
  have room : ids.toList.length * max 2 1 ≤ (ids.toList.flatMap writeTerm ++ rest).length := by
    have := length_flatMap_write large
    rw [Nat.max_eq_left (by decide), List.length_append]
    omega
  have read := reads_readTerms few terms ∅ rest
  rw [foldl_insert_toList] at read
  rw [writeIds, Write.list, List.append_assoc]
  refine (Reads.bind (Reads.lift (reads_count "identity terms" room)) fun _ => read).of_iff ?_
  rw [Std.ExtTreeMap.length_toList]
  refine and_congr_right fun _ => ⟨fun short term member => ?_, fun short id member => ?_⟩
  · refine short term.1 (Std.ExtTreeMap.mem_iff_isSome_getElem?.mpr ?_)
    rw [Std.ExtTreeMap.mem_toList_iff_getElem?_eq_some.mp member, Option.isSome_some]
  · exact short (id, ids[id]) (Std.ExtTreeMap.mem_toList_iff_getElem?_eq_some.mpr
      (Std.ExtTreeMap.getElem?_eq_some_getElem member))

end Identities

section Masks

theorem testBit_foldRev (set : Nat → Bool) (count higher bit : Nat) :
    (count.foldRev (fun bit _ higher => (set bit).toNat + 2 * higher) higher).testBit bit =
      if bit < count then set bit else higher.testBit (bit - count) := by
  -- The bits are entered from the highest down, and each moves those above it up by one.
  induction count generalizing higher with
  | zero => simp
  | succ count ih =>
      rw [Nat.foldRev_succ, ih]
      rcases Nat.lt_trichotomy bit count with below | rfl | above
      · simp [below, Nat.lt_succ_of_lt below]
      · cases set bit <;> simp [Nat.testBit_zero]
      · obtain ⟨gap, rfl⟩ := Nat.exists_eq_add_of_lt above
        have shifted : ((set count).toNat + 2 * higher) / 2 = higher := by
          have := Bool.toNat_lt (set count)
          omega
        have distance : count + gap + 1 - count = gap + 1 := by omega
        have further : count + gap + 1 - (count + 1) = gap := by omega
        have outside : ¬ count + gap + 1 < count + 1 := by omega
        rw [if_neg (Nat.not_lt_of_gt above), if_neg outside, distance, further, Nat.testBit_succ,
          shifted]

theorem testBit_maskByte (mask : Array Bool) (index : Nat) {bit : Nat} (small : bit < 8) :
    (maskByte mask index).toNat.testBit bit = mask[8 * index + bit]?.getD false := by
  have read := testBit_foldRev (fun bit => mask[8 * index + bit]?.getD false) 8 0 bit
  rw [if_pos small] at read
  rw [maskByte, UInt8.toNat_ofNat', Nat.testBit_mod_two_pow, read]
  simp [small]

theorem length_packMask (mask : List Bool) : (packMask mask).length = maskLength mask.length := by
  rw [packMask, List.length_map, List.length_range]

/-- Only the bits of positions count, so what is written is read back. -/
theorem unpackMask_packMask (mask : List Bool) : unpackMask mask.length (packMask mask) = mask := by
  refine List.ext_getElem (by simp [unpackMask]) fun position _ inside => ?_
  have there : position / 8 < maskLength mask.length := by
    rw [maskLength]
    omega
  have whole : 8 * (position / 8) + position % 8 = position := Nat.div_add_mod _ _
  have byte : (packMask mask)[position / 8]? = some (maskByte mask.toArray (position / 8)) := by
    rw [packMask, List.getElem?_map, List.getElem?_range there, Option.map_some]
  have bit := testBit_maskByte mask.toArray (position / 8) (Nat.mod_lt position (by decide))
  rw [whole, List.getElem?_toArray, List.getElem?_eq_getElem inside, Option.getD_some] at bit
  simp only [unpackMask, List.getElem_map, List.getElem_range, List.getElem?_toArray]
  rw [byte, Option.any_some, bit]

theorem reads_readMask {maxDoc : Nat} (few : maxDoc ≤ listLimit) {mask : List Bool}
    (spans : mask.length = maxDoc) (rest : Bytes) :
    Reads (readMask maxDoc) (writeMask mask ++ rest) True mask rest := by
  subst spans
  have small : maskLength mask.length < 2 ^ 31 := by
    have : mask.length ≤ 2 ^ 24 := few
    rw [maskLength]
    omega
  refine (Reads.bind (Reads.lift ((recovers_bytes _).reads rest)) fun _ =>
    (?_ : Reads _ _ True _ _)).of_iff (by simpa [length_packMask] using small)
  rw [if_pos (length_packMask mask), unpackMask_packMask]
  exact .pure mask rest

end Masks

theorem reads_readMaxDoc (maxDoc : Nat) (rest : Bytes) :
    Reads readMaxDoc (groups maxDoc ++ rest) (maxDoc ≤ listLimit) maxDoc rest := by
  unfold readMaxDoc
  refine (Reads.bind (Reads.lift ((recovers_groups maxDoc).reads rest)) fun fits =>
    (?_ : Reads _ _ (maxDoc ≤ listLimit) _ _)).of_iff ?_
  · dsimp only
    by_cases few : maxDoc ≤ listLimit
    · have small : maxDoc < 2 ^ 31 := Nat.lt_of_le_of_lt few (by decide)
      have passed : ¬ ((UInt32.ofNat maxDoc).toInt32 < 0 ∨
          listLimit < (UInt32.ofNat maxDoc).toInt32.toInt.toNat) := by
        rw [toInt32_neg_iff fits, toNat_toInt32 small]
        omega
      rw [toNat_toInt32 small] at passed ⊢
      exact (Reads.guarded passed (.pure maxDoc rest)).of_iff (iff_true_intro few)
    · refine (Reads.refused ?_).of_iff (iff_false_intro few)
      by_cases small : maxDoc < 2 ^ 31
      · rw [toNat_toInt32 small]
        exact .inr (Nat.lt_of_not_le few)
      · exact .inl ((toInt32_neg_iff fits).mpr (Nat.le_of_not_lt small))
  · have bound : listLimit < UInt32.size := by decide
    omega

theorem fits_iff {segment : Segment} :
    segment.Fits ↔ segment.maxDoc ≤ listLimit ∧ ∀ ids ∈ segment.ids?,
      ids.size ≤ listLimit ∧ ∀ id : Bytes, id ∈ ids → id.length < 2 ^ 31 :=
  ⟨fun fits => ⟨fits.documents, fun ids held => ⟨fits.terms ids held, fits.names ids held⟩⟩,
    fun given => ⟨given.1, fun ids held => (given.2 ids held).1,
      fun ids held => (given.2 ids held).2⟩⟩

def body (segment : Segment) : Bytes := segment.writeParts.foldr (· ++ ·) []

theorem reads_readBody {segment : Segment} (formed : segment.IsWellFormed) :
    Reads readBody segment.body segment.Fits segment [] := by
  have columns := formed.columns
  simp only [Segment.columns, List.forall_mem_cons] at columns
  obtain ⟨versions, seqNos, primaryTerms, softDeletes, tombstones, -⟩ := columns
  have take (rest : Bytes) : Reads (take letters.length) (letters ++ rest) True letters rest :=
    ⟨fun _ => start_take rfl rest, fun lacking => absurd trivial lacking⟩
  have finish : Reads finish [] True () [] := ⟨fun _ => rfl, fun lacking => absurd trivial lacking⟩
  -- If there are too many documents, reading ends before these two parts.
  have ids (few : segment.maxDoc ≤ listLimit) (rest : Bytes) :
      Reads (readOptional (readIds segment.maxDoc)) (writeOptional writeIds segment.ids? ++ rest)
        _ segment.ids? rest :=
    reads_optional fun ids held => reads_readIds few (formed.postings ids held) rest
  have mask (few : segment.maxDoc ≤ listLimit) (rest : Bytes) :
      Reads (readOptional (readMask segment.maxDoc))
        (writeOptional writeMask segment.mask? ++ rest) _ segment.mask? rest :=
    reads_optional fun mask held => reads_readMask few (formed.masked mask held) rest
  unfold readBody
  refine (Reads.bind (.lift (take _)) fun _ => .guarded (by simp) <|
    .bind (.lift ((recovers_u8 formatVersion).reads _)) fun _ => .guarded (by simp) <|
    .bind (.lift ((recovers_vlong segment.generation).reads _)) fun _ =>
    .bind (reads_readMaxDoc segment.maxDoc _) fun few =>
    .bind (reads_readColumn versions _) fun _ => .bind (reads_readColumn seqNos _) fun _ =>
    .bind (reads_readColumn primaryTerms _) fun _ =>
    .bind (reads_readColumn softDeletes _) fun _ =>
    .bind (reads_readColumn tombstones _) fun _ =>
    .bind (ids few _) fun _ => .bind (mask few _) fun _ => .bind (.lift finish) fun _ =>
    .pure segment []).of_iff ?_
  simp [fits_iff]

/-- What is read from the file of a segment is the segment, if it fits into a file. -/
theorem decode_encode_iff {segment : Segment} (formed : segment.IsWellFormed) (other : Segment) :
    decode segment.encode = .ok other ↔ segment.Fits ∧ other = segment := by
  have bounded : (checksum segment.body).toNat < 256 ^ 4 := UInt32.toNat_lt _
  have file : segment.encode = segment.body ++ Write.u32 (checksum segment.body) := rfl
  have footer : (Write.u32 (checksum segment.body)).length = footerLength :=
    Bytes.length_bigEndian 4 _
  have long : letters.length ≤ segment.body.length := by
    simp [body, writeParts]
  have length : segment.encode.length = segment.body.length + footerLength := by
    rw [file, List.length_append, footer]
  have stored : Bytes.ofBigEndian (Write.u32 (checksum segment.body)) =
      (checksum segment.body).toNat := by
    rw [Write.u32, Bytes.ofBigEndian_bigEndian, Nat.mod_eq_of_lt bounded]
  have opened : decode segment.encode = (readBody.run.run segment.body).1 := by
    rw [decode, if_neg (by omega), length, Nat.add_sub_cancel, file, List.take_left,
      List.drop_left]
    exact if_neg (by simp [stored])
  have reads := reads_readBody formed
  rw [opened]
  by_cases fits : segment.Fits
  · simp [reads.takes fits, fits, eq_comm]
  · obtain ⟨error, left, failed⟩ := reads.fails fits
    simp [failed, fits]

/-- A segment that comes about by sealing, deleting positions and reading files. -/
inductive Made : Segment → Prop where
  | build (builder : SegmentBuilder) (generation : Generation) : Made (builder.build generation)
  | withSoftDeleted {segment : Segment} (made : Made segment) (position : Nat)
      (generation : Generation) : Made (segment.withSoftDeleted position generation)
  | decode {file : Bytes} {segment : Segment} (decoded : Segment.decode file = .ok segment) :
      Made segment

theorem Made.isWellFormed {segment : Segment} (made : segment.Made) : segment.IsWellFormed := by
  induction made with
  | build builder generation => exact isWellFormed_build builder generation
  | withSoftDeleted _ position generation ih =>
      exact isWellFormed_withSoftDeleted ih position generation
  | decode decoded => exact (wellFormed_decode decoded).1

/-- The mask and the columns of a segment have an entry for each position, and what it posts
are ascending positions of its own. It is read back from its file unless it is too large for
one, which no segment is that has been read from any file. -/
theorem Made.readBack {segment : Segment} (made : segment.Made) :
    segment.IsWellFormed ∧
    (segment.maxDoc ≤ 2 ^ 24 → (∀ ids ∈ segment.ids?, ∀ id : Bytes, id ∈ ids → id.length < 2 ^ 31) →
      Segment.decode segment.encode = .ok segment) ∧
    ∀ file, Segment.decode file = .ok segment → Segment.decode segment.encode = .ok segment := by
  have formed := made.isWellFormed
  refine ⟨formed, fun few short => ?_, fun file decoded => ?_⟩
  · refine (decode_encode_iff formed segment).mpr ⟨⟨few, fun ids held => ?_, short⟩, rfl⟩
    exact Nat.le_trans (formed.terms ids held) (Nat.max_le.mpr ⟨few, Nat.le_refl _⟩)
  · exact (decode_encode_iff formed segment).mpr ⟨(wellFormed_decode decoded).2, rfl⟩

/-- A file with spare groups in its numbers, spare bits in its mask, and ids that are
neither in order nor different. -/
theorem Made.readBack_redundant :
    let file : Bytes := [
      0x50, 0x52, 0x53, 0x47, 0x01, 0x85, 0x00, 0x83, 0x00, 0x01, 0x01, 0x00, 0x00, 0x00,
      0x00, 0x00, 0x00, 0x00, 0x01, 0x00, 0x00, 0x00, 0x00, 0x00, 0x00, 0x01, 0x03, 0x01,
      0x62, 0x01, 0x00, 0x01, 0x61, 0x01, 0x01, 0x01, 0x62, 0x01, 0x02, 0x01, 0x01, 0xFB,
      0xC3, 0x41, 0x30, 0xBE]
    let versions : Column := ⟨[some 1, none, none]⟩
    let ids : Std.ExtTreeMap Bytes (List Nat) :=
      .ofList [(([0x62] : Bytes), [0]), ([0x61], [1]), ([0x62], [2])]
    let segment : Segment := {
      generation := 5, maxDoc := 3, versions? := some versions, ids? := some ids
      mask? := some [true, true, false] }
    Segment.decode file = .ok segment ∧ segment.encode ≠ file ∧
      Segment.decode segment.encode = .ok segment := by
  intro file versions ids segment
  have decoded : Segment.decode file = .ok segment := eq_ok_of_toOption (by decide +kernel)
  have differs : segment.encode ≠ file := by decide +kernel
  exact ⟨decoded, differs, (Made.decode decoded).readBack.2.2 file decoded⟩

/-- A segment of a builder, from which positions may have been deleted, and which may
have been in a file in between. -/
inductive Sealed : Segment → Prop where
  | build (builder : SegmentBuilder) (generation : Generation) : Sealed (builder.build generation)
  | withSoftDeleted {segment : Segment} (origin : Sealed segment) (position : Nat)
      (generation : Generation) : Sealed (segment.withSoftDeleted position generation)
  | decode {segment read : Segment} (origin : Sealed segment)
      (decoded : Segment.decode segment.encode = .ok read) : Sealed read

/-- Deletions and files do not lead out of what a builder can seal. -/
theorem Sealed.exists_build {segment : Segment} (origin : segment.Sealed) :
    ∃ builder : SegmentBuilder, segment = builder.build segment.generation := by
  induction origin with
  | build builder generation => exact ⟨builder, rfl⟩
  | @withSoftDeleted segment _ position generation ih =>
      obtain ⟨builder, same⟩ := ih
      rw [same]
      by_cases inside : position < builder.size
      · rw [SegmentBuilder.withSoftDeleted_build inside]
        exact ⟨_, rfl⟩
      · have outside : ¬ position < (builder.build segment.generation).maxDoc := inside
        simp only [Segment.withSoftDeleted, if_neg outside]
        exact ⟨builder, rfl⟩
  | @decode segment read _ decoded ih =>
      obtain ⟨builder, same⟩ := ih
      have formed := isWellFormed_build builder segment.generation
      rw [← same] at formed
      obtain ⟨-, rfl⟩ := (decode_encode_iff formed read).mp decoded
      exact ⟨builder, same⟩

theorem Sealed.isMasked {segment : Segment} (origin : segment.Sealed) : segment.IsMasked := by
  obtain ⟨builder, same⟩ := origin.exists_build
  rw [same]
  exact isMasked_build builder _

end Segment

end ShardSync
