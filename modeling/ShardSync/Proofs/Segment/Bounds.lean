import ShardSync.Proofs.Segment.Mask
import ShardSync.Proofs.Wire.Yielding
import ShardSync.Segment.Format

/-!
# Within the bounds of a segment

The mask and the columns of a segment have an entry for each of its positions and no other,
and its index speaks of its own positions only, however it was made: by sealing a builder,
by deleting positions of another segment, or from a file. One that comes from a file is
also within the limits that a reader sets.
-/

set_option autoImplicit false

namespace ShardSync

/-- Positions below a bound, in increasing order. -/
def ArePostings (maxDoc : Nat) (positions : List Nat) : Prop :=
  positions.Pairwise (· < ·) ∧ ∀ position ∈ positions, position < maxDoc

namespace Segment

def columns (segment : Segment) : List (Option Column) := [
  segment.versions?, segment.seqNos?, segment.primaryTerms?, segment.softDeletes?,
  segment.tombstones?]

/-- A column has an entry for each position, so that none is looked up beyond its end. -/
def Spans (maxDoc : Nat) (column? : Option Column) : Prop :=
  ∀ column ∈ column?, column.cells.length = maxDoc

/-- The mask and the columns have as many entries as the segment has positions, and every
position that the index speaks of exists. -/
structure IsWellFormed (segment : Segment) : Prop where
  masked : segment.IsMasked
  columns : ∀ column? ∈ segment.columns, Spans segment.maxDoc column?
  postings : ∀ ids ∈ segment.ids?, ∀ (id : Bytes) (positions : List Nat),
    ids[id]? = some positions → ArePostings segment.maxDoc positions
  /-- A segment from a file may name ids that no position carries. -/
  terms : ∀ ids ∈ segment.ids?, ids.size ≤ max segment.maxDoc Wire.Reader.listLimit

/-- Whether a file can hold the segment. -/
structure Fits (segment : Segment) : Prop where
  documents : segment.maxDoc ≤ Wire.Reader.listLimit
  terms : ∀ ids ∈ segment.ids?, ids.size ≤ Wire.Reader.listLimit
  names : ∀ ids ∈ segment.ids?, ∀ id ∈ ids, id.length < 2 ^ 31

theorem Spans.set {maxDoc : Nat} {column? : Option Column} (spans : Spans maxDoc column?)
    (position : Nat) (value : Int64) :
    Spans maxDoc (some ((column?.getD (.blank maxDoc)).set position value)) := by
  intro column held
  cases held
  rw [Column.set, List.length_set]
  cases column? with
  | none => exact List.length_replicate
  | some column => exact spans column rfl

theorem spans_column? (builder : SegmentBuilder) (field : Document → Option Int64) :
    Spans builder.size (builder.column? field) := by
  intro column held
  rcases builder.column?_cases field with there | ⟨missing, _⟩
  · rw [there] at held
    cases held
    exact List.length_map ..
  · rw [missing] at held
    cases held

theorem pairwise_named (builder : SegmentBuilder) :
    builder.named.Pairwise fun first second => first.2 < second.2 := by
  refine (SegmentBuilder.pairwise_zipIdx builder.entries).filterMap _ ?_
  intro first second less value same other sameOther
  obtain ⟨_, _, rfl⟩ := Option.map_eq_some_iff.mp same
  obtain ⟨_, _, rfl⟩ := Option.map_eq_some_iff.mp sameOther
  exact less

theorem named_lt {builder : SegmentBuilder} {place : Bytes × Nat}
    (member : place ∈ builder.named) : place.2 < builder.size := by
  obtain ⟨⟨entry, position⟩, listed, carried⟩ := List.mem_filterMap.mp member
  obtain ⟨_, _, rfl⟩ := Option.map_eq_some_iff.mp carried
  exact (List.getElem?_eq_some_iff.mp (List.mk_mem_zipIdx_iff_getElem?.mp listed)).1

theorem arePostings_build (builder : SegmentBuilder) (generation : Generation) (id : Bytes) :
    ArePostings builder.size (((builder.build generation).postings? id).getD []) := by
  rw [SegmentBuilder.postings?_build]
  constructor
  · exact ((pairwise_named builder).filter _).map _ fun _ _ less => less
  · intro position member
    obtain ⟨place, chosen, rfl⟩ := List.mem_map.mp member
    exact named_lt (List.mem_of_mem_filter chosen)

theorem size_foldr_post_le (named : List (Bytes × Nat)) :
    (named.foldr (fun (id, position) ids => SegmentBuilder.post ids id position) ∅).size ≤
      named.length := by
  induction named with
  | nil => simp
  | cons place named ih => exact Nat.le_trans Std.ExtTreeMap.size_insert_le (by simpa using ih)

theorem isWellFormed_build (builder : SegmentBuilder) (generation : Generation) :
    (builder.build generation).IsWellFormed where
  masked := isMasked_build builder generation
  columns := by
    simp only [Segment.columns, List.forall_mem_cons, SegmentBuilder.build]
    simp [spans_column?]
  postings ids held id positions found := by
    have listed := arePostings_build builder generation id
    rwa [postings?, Option.mem_def.mp held, Option.bind_some, found, Option.getD_some] at listed
  terms ids held := by
    have few : builder.named.length ≤ builder.size := by
      have := List.length_filterMap_le (fun place : Pending × Nat =>
        place.1.document.id?.map fun id => (id, place.2)) builder.entries.zipIdx
      rwa [List.length_zipIdx] at this
    have known := builder.ids?_eq
    rw [show builder.ids? = some ids from held] at known
    split at known
    · cases known
    · cases known
      have := size_foldr_post_le builder.named
      exact Nat.le_trans this (Nat.le_trans few (Nat.le_max_left _ _))

theorem isWellFormed_withSoftDeleted {segment : Segment} (formed : segment.IsWellFormed)
    (position : Nat) (generation : Generation) :
    (segment.withSoftDeleted position generation).IsWellFormed where
  masked := isMasked_withSoftDeleted formed.masked position generation
  columns := by
    have columns := formed.columns
    simp only [Segment.columns, List.forall_mem_cons] at columns ⊢
    obtain ⟨versions, seqNos, primaryTerms, softDeletes, tombstones, none⟩ := columns
    unfold withSoftDeleted
    split
    · exact ⟨versions, seqNos, primaryTerms, softDeletes.set position 1, tombstones, none⟩
    · exact ⟨versions, seqNos, primaryTerms, softDeletes, tombstones, none⟩
  postings := by
    unfold withSoftDeleted
    split
    · exact formed.postings
    · exact formed.postings
  terms := by
    unfold withSoftDeleted
    split
    · exact formed.terms
    · exact formed.terms

/-- What a reader returns has the property, whatever it reads. -/
def FileReader.Ensures {α : Type} (reader : FileReader α) (property : α → Prop) : Prop :=
  ∀ input value rest, reader.run.run input = (.ok value, rest) → property value

namespace FileReader.Ensures

theorem any {α : Type} (reader : FileReader α) : reader.Ensures fun _ => True :=
  fun _ _ _ _ => trivial

theorem pure {α : Type} {property : α → Prop} {value : α} (holds : property value) :
    FileReader.Ensures (Pure.pure value) property := by
  intro input other rest ran
  cases ran
  exact holds

theorem throw {α : Type} {property : α → Prop} (error : SegmentError) :
    FileReader.Ensures (MonadExcept.throw error) property := by
  intro input other rest ran
  cases ran

theorem bind {α β : Type} {reader : FileReader α} {next : α → FileReader β}
    {first : α → Prop} {property : β → Prop} (ensures : reader.Ensures first)
    (then_ensures : ∀ value, first value → (next value).Ensures property) :
    FileReader.Ensures (reader >>= next) property := by
  intro input value rest ran
  have run_bind : (reader >>= next).run.run input =
      match reader.run.run input with
      | (.ok value, rest) => (next value).run.run rest
      | (.error error, rest) => (.error error, rest) := by
    change (ExceptT.bindCont next (reader.run.run input).1).run (reader.run.run input).2 = _
    generalize reader.run.run input = read
    rcases read with ⟨outcome, left⟩
    cases outcome <;> rfl
  rw [run_bind] at ran
  split at ran
  · next between left read =>
      exact then_ensures between (ensures input between left read) left value rest ran
  · cases ran

theorem mono {α : Type} {reader : FileReader α} {property weaker : α → Prop}
    (ensures : reader.Ensures property) (implies : ∀ value, property value → weaker value) :
    reader.Ensures weaker :=
  fun input value rest ran => implies value (ensures input value rest ran)

theorem guarded {β : Type} {property : β → Prop} {condition : Prop} [Decidable condition]
    {error : SegmentError} {next : Unit → FileReader β}
    (ensures : ¬ condition → (next ()).Ensures property) :
    FileReader.Ensures (if condition then MonadExcept.throw error >>= next else next ())
      property := by
  split
  · exact .bind (.throw error) fun _ refused => False.elim refused
  · next passed => exact ensures passed

theorem lift {α : Type} {reader : Wire.Reader α} {property : α → Prop}
    (yields : reader.Yields property) :
    FileReader.Ensures (monadLift reader) property := by
  intro input value rest ran
  change ((reader.run.run input).1.mapError _, (reader.run.run input).2) = _ at ran
  cases outcome : reader.run.run input with
  | mk read left =>
      rw [outcome] at ran
      cases read with
      | error error => cases ran
      | ok found =>
          cases ran
          exact yields.holds outcome

end FileReader.Ensures

theorem ensures_readMask (maxDoc : Nat) :
    (readMask maxDoc).Ensures fun mask => mask.length = maxDoc := by
  unfold readMask
  refine .bind (.any _) fun packed _ => ?_
  split
  · refine .pure ?_
    rw [unpackMask, List.length_map, List.length_range]
  · exact .throw _

theorem ensures_readOptional {α : Type} {reader : FileReader α} {property : α → Prop}
    (ensures : reader.Ensures property) :
    (readOptional reader).Ensures fun value? => ∀ value ∈ value?, property value := by
  unfold readOptional
  refine .bind (.any _) fun present _ => ?_
  split
  · refine .bind ensures fun value holds => .pure fun other same => ?_
    cases same
    exact holds
  · exact .pure fun other same => by cases same

theorem yields_readCell : readCell.Yields fun _ => True :=
  .bind Wire.Reader.yields_bool fun _ _ =>
    .ite (fun _ => .bind Wire.Reader.yields_i64 fun _ _ => .pure trivial) fun _ => .pure trivial

theorem ensures_readColumn (maxDoc : Nat) :
    (readOptional (readColumn maxDoc)).Ensures (Spans maxDoc) := by
  refine ensures_readOptional ?_
  refine .bind (.lift (Wire.Reader.yields_times yields_readCell maxDoc (by simp)))
    fun cells counted => .pure ?_
  rw [counted.1, List.length_nil, Nat.zero_add]

theorem ensures_readPositions {maxDoc count : Nat} {positions : List Nat}
    (before : ArePostings maxDoc positions.reverse) :
    (readPositions maxDoc count positions).Ensures (ArePostings maxDoc) := by
  induction count generalizing positions with
  | zero => exact .pure before
  | succ count ih =>
      refine .bind (.any _) fun value _ => .guarded fun known => ?_
      dsimp only
      refine .guarded fun ascends => ih ?_
      obtain ⟨ordered, inside⟩ := before
      rw [List.pairwise_reverse] at ordered
      rw [ArePostings, List.pairwise_reverse]
      constructor
      · -- The positions are in reverse, so the first of them is the highest.
        refine List.pairwise_cons.mpr ⟨fun earlier member => ?_, ordered⟩
        cases positions with
        | nil => cases member
        | cons highest positions =>
            have above : highest < value.toInt.toNat := by simpa using ascends
            rcases List.mem_cons.mp member with rfl | lower
            · exact above
            · exact Nat.lt_trans ((List.pairwise_cons.mp ordered).1 earlier lower) above
      · have below : value.toInt.toNat < maxDoc :=
          Nat.not_le.mp fun beyond => known (.inr beyond)
        intro position member
        rcases List.mem_cons.mp (List.mem_reverse.mp member) with rfl | before
        · exact below
        · exact inside position (List.mem_reverse.mpr before)

/-- Each id names positions of the segment, and is itself short enough to be read. -/
def AreTerms (maxDoc : Nat) (ids : Std.ExtTreeMap Bytes (List Nat)) : Prop :=
  ∀ (id : Bytes) (positions : List Nat), ids[id]? = some positions →
    ArePostings maxDoc positions ∧ id.length < 2 ^ 31

theorem ensures_readTerms {maxDoc count : Nat} {ids : Std.ExtTreeMap Bytes (List Nat)}
    (before : AreTerms maxDoc ids) :
    (readTerms maxDoc count ids).Ensures fun read =>
      AreTerms maxDoc read ∧ read.size ≤ ids.size + count := by
  induction count generalizing ids with
  | zero => exact .pure ⟨before, Nat.le_refl _⟩
  | succ count ih =>
      refine .bind (.lift Wire.Reader.yields_bytes) fun id short => ?_
      refine .bind (.any _) fun length _ => ?_
      refine .bind (ensures_readPositions ⟨.nil, by simp⟩) fun positions listed => ?_
      have entered : AreTerms maxDoc (ids.insert id positions) := by
        intro other found held
        rw [Std.ExtTreeMap.getElem?_insert] at held
        split at held
        · next same =>
            cases held
            rw [← Std.LawfulEqCmp.compare_eq_iff_eq.mp same]
            exact ⟨listed, short⟩
        · exact before other found held
      have grown := @Std.ExtTreeMap.size_insert_le _ _ _ ids _ id positions
      exact (ih entered).mono fun read given => ⟨given.1, by omega⟩

theorem ensures_readIds (maxDoc : Nat) :
    (readIds maxDoc).Ensures fun ids =>
      AreTerms maxDoc ids ∧ ids.size ≤ Wire.Reader.listLimit := by
  refine .bind (.lift (Wire.Reader.yields_count _ _)) fun count few => ?_
  refine (ensures_readTerms ?_).mono fun ids given => ⟨given.1, ?_⟩
  · intro id positions held
    simp at held
  · simpa using Nat.le_trans given.2 (by simpa using few)

theorem ensures_readMaxDoc : readMaxDoc.Ensures (· ≤ Wire.Reader.listLimit) := by
  refine .bind (.any _) fun value _ => .guarded fun within => .pure ?_
  exact Nat.not_lt.mp fun beyond => within (.inr beyond)

theorem ensures_readBody : readBody.Ensures fun segment => segment.IsWellFormed ∧ segment.Fits := by
  unfold readBody
  refine .bind (.any _) fun found _ => .guarded fun _ => .bind (.any _) fun version _ => ?_
  refine .guarded fun _ => .bind (.any _) fun generation _ => ?_
  refine .bind ensures_readMaxDoc fun maxDoc small => ?_
  have column := ensures_readColumn maxDoc
  refine .bind column fun versions? versions => .bind column fun seqNos? seqNos => ?_
  refine .bind column fun primaryTerms? primaryTerms => .bind column fun softDeletes? marks => ?_
  refine .bind column fun tombstones? tombstones => ?_
  refine .bind (ensures_readOptional (ensures_readIds maxDoc)) fun ids? terms => ?_
  refine .bind (ensures_readOptional (ensures_readMask maxDoc)) fun mask? masked => ?_
  refine .bind (.any _) fun _ _ => .pure ⟨⟨masked, ?_, ?_, ?_⟩, ⟨small, ?_, ?_⟩⟩
  · simp [Segment.columns, versions, seqNos, primaryTerms, marks, tombstones]
  · exact fun ids held id positions found => ((terms ids held).1 id positions found).1
  · exact fun ids held => Nat.le_trans (terms ids held).2 (Nat.le_max_right _ _)
  · exact fun ids held => (terms ids held).2
  · intro ids held id member
    exact ((terms ids held).1 id _ (Std.ExtTreeMap.getElem?_eq_some_getElem member)).2

/-- What is read from a file is within its bounds, and can be written to a file. -/
theorem wellFormed_decode {file : Bytes} {segment : Segment}
    (decoded : decode file = .ok segment) : segment.IsWellFormed ∧ segment.Fits := by
  unfold decode at decoded
  split at decoded
  · cases decoded
  · dsimp only at decoded
    split at decoded
    · cases decoded
    · exact ensures_readBody _ segment _ (Prod.ext decoded rfl)

/-- A segment that is read from a file has its mask within its positions. -/
theorem isMasked_decode {file : Bytes} {segment : Segment} (decoded : decode file = .ok segment) :
    segment.IsMasked :=
  (wellFormed_decode decoded).1.masked

end Segment

end ShardSync
