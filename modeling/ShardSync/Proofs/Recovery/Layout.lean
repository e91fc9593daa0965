import ShardSync.Proofs.Engine.Processed
import ShardSync.Proofs.Recovery.History

/-!
# Held operations in segments

How segments hold some operations of a history: each of them has a position, and
that of an index operation is deleted if a later operation on its id is held.
For an id, the last held operation says whether a document is live.
-/

set_option autoImplicit false

namespace ShardSync.Recovery

open Engine (liveWith)

/-- Whether a later operation on the same id is held. -/
def isSuperseded (held : List Operation) (operation : Operation) : Bool :=
  operation.id?.any fun id =>
    held.any fun other => other.id? == some id && decide (operation.seqNo < other.seqNo)

def layOne (held : List Operation) (builder : SegmentBuilder) (operation : Operation) :
    SegmentBuilder :=
  if isSuperseded held operation then
    (builder.add operation.document).softDelete builder.size
  else builder.add operation.document

def layOut (held operations : List Operation) : SegmentBuilder :=
  operations.foldl (layOne held) {}

/-- The operations in each of some segments, with the generations of these. -/
abbrev Layout := List (Generation × List Operation)

namespace Layout

def operations (layout : Layout) : List Operation := layout.flatMap (·.2)

def parts (layout : Layout) : List Part :=
  layout.map fun (generation, operations) => ⟨generation, layOut layout.operations operations⟩

def segments (layout : Layout) : List Segment := layout.parts.map Part.segment

end Layout

def entryOf (held : List Operation) (operation : Operation) : Pending :=
  if isSuperseded held operation then
    ⟨{ operation.document with softDeleted := true }, false⟩
  else ⟨operation.document, !operation.document.softDeleted⟩

theorem modify_concat {α : Type} (items : List α) (item : α) (change : α → α) :
    (items ++ [item]).modify items.length change = items ++ [change item] := by
  induction items with
  | nil => rfl
  | cons first items ih =>
      rw [List.cons_append, List.length_cons, List.modify_succ_cons, ih]
      rfl

theorem entries_layOne (held : List Operation) (builder : SegmentBuilder)
    (operation : Operation) :
    (layOne held builder operation).entries = builder.entries ++ [entryOf held operation] := by
  unfold layOne entryOf
  split
  · exact modify_concat builder.entries _ _
  · rfl

theorem entries_foldl_layOne (held operations : List Operation) (builder : SegmentBuilder) :
    (operations.foldl (layOne held) builder).entries =
      builder.entries ++ operations.map (entryOf held) := by
  induction operations generalizing builder with
  | nil => exact (List.append_nil _).symm
  | cons operation operations ih =>
      rw [List.foldl_cons, ih, entries_layOne, List.append_assoc]
      rfl

theorem entries_layOut (held operations : List Operation) :
    (layOut held operations).entries = operations.map (entryOf held) :=
  entries_foldl_layOne held operations {}

theorem id?_entryOf (held : List Operation) (operation : Operation) :
    (entryOf held operation).document.id? = operation.key? := by
  rw [← operation.id?_document, entryOf]
  split <;> rfl

theorem isComplete_entryOf (held : List Operation) (operation : Operation) :
    (entryOf held operation).IsComplete := by
  have complete := operation.isComplete_document
  unfold entryOf
  split
  · exact ⟨complete.version, complete.seqNo, complete.primaryTerm, fun missing =>
      ⟨rfl, (complete.trace missing).2⟩⟩
  · exact complete

theorem entries_parts (layout : Layout) :
    layout.parts.flatMap (·.builder.entries) =
      layout.operations.map (entryOf layout.operations) := by
  rw [Layout.parts, List.flatMap_map]
  simp only [entries_layOut]
  rw [← List.map_flatMap]
  rfl

theorem liveWith_perm {first second : List Pending} (same : first.Perm second) (id : Bytes) :
    (liveWith id first).Perm (liveWith id second) :=
  (same.filter _).map _

theorem isSuperseded_iff {held : List Operation} {operation : Operation} {id : Bytes}
    (carries : operation.key? = some id) :
    isSuperseded held operation = true ↔
      ∃ other ∈ held, other.key? = some id ∧ operation.seqNo < other.seqNo := by
  obtain ⟨name, named, same⟩ := Option.map_eq_some_iff.mp carries
  simp only [isSuperseded, named, Option.any_some, List.any_eq_true, Bool.and_eq_true, beq_iff_eq,
    decide_eq_true_eq]
  refine exists_congr fun other => and_congr_right fun _ => and_congr_left fun _ => ?_
  constructor
  · intro equal
    rw [Operation.key?, equal, ← same]
    rfl
  · intro equal
    obtain ⟨otherName, otherNamed, otherSame⟩ := Option.map_eq_some_iff.mp equal
    rw [otherNamed, encode_injective (otherSame.trans same.symm)]

/-- Only what carries an id matters for what is live under it. -/
theorem liveWith_map_entryOf (held operations : List Operation) (id : Bytes) :
    liveWith id (operations.map (entryOf held)) =
      liveWith id ((operations.filter (·.key? == some id)).map (entryOf held)) := by
  induction operations with
  | nil => rfl
  | cons operation operations ih =>
      by_cases carries : operation.key? = some id
      · rw [List.filter_cons_of_pos (by simp [carries]), List.map_cons, List.map_cons,
          ← List.singleton_append, Engine.liveWith_append, ih, ← Engine.liveWith_append]
        rfl
      · rw [List.filter_cons_of_neg (by simp [carries]), List.map_cons,
          Engine.liveWith_cons_of_ne, ih]
        rw [id?_entryOf]
        exact carries

theorem liveWith_superseded {held operations : List Operation}
    (superseded : ∀ operation ∈ operations, isSuperseded held operation = true) (id : Bytes) :
    liveWith id (operations.map (entryOf held)) = [] := by
  induction operations with
  | nil => rfl
  | cons operation operations ih =>
      rw [List.map_cons, Engine.liveWith_cons_of_dead]
      · exact ih fun other member => superseded other (List.mem_cons_of_mem _ member)
      · rw [entryOf, if_pos (superseded operation List.mem_cons_self)]

/-- Of held operations in the order of their numbers, the last one on an id
says which document is live. -/
theorem liveWith_ordered {held : List Operation}
    (increasing : held.Pairwise fun first second => first.seqNo < second.seqNo) (id : Bytes) :
    liveWith id (held.map (entryOf held)) = (afterAll held id).toList := by
  rw [liveWith_map_entryOf, afterAll_eq]
  cases found : lastWith held id with
  | none =>
      have none : held.filter (·.key? == some id) = [] := List.getLast?_eq_none_iff.mp found
      rw [none]
      rfl
  | some last =>
      obtain ⟨before, split⟩ := List.getLast?_eq_some_iff.mp found
      obtain ⟨member, carries⟩ := mem_of_lastWith found
      have superseded : ∀ operation ∈ before, isSuperseded held operation = true := by
        intro operation earlier
        have ordered := increasing.filter (·.key? == some id)
        have listed : operation ∈ held.filter (·.key? == some id) := by
          rw [split]
          exact List.mem_append_left _ earlier
        rw [split] at ordered
        have older := (List.pairwise_append.mp ordered).2.2 operation earlier last
          (List.mem_singleton_self _)
        have same := beq_iff_eq.mp (List.mem_filter.mp listed).2
        exact (isSuperseded_iff same).mpr ⟨last, member, carries, older⟩
      have latest : isSuperseded held last = false := by
        rw [← Bool.not_eq_true, isSuperseded_iff carries]
        intro given
        obtain ⟨other, listed, same, younger⟩ := given
        rcases le_of_lastWith increasing found listed same with rfl | older
        · exact Int64.lt_irrefl younger
        · exact Int64.lt_irrefl (Int64.lt_trans younger older)
      rw [split, List.map_append, Engine.liveWith_append, liveWith_superseded superseded,
        List.nil_append, List.map_singleton, entryOf, latest, if_neg Bool.false_ne_true,
        Option.bind_some, Operation.live?]
      have named := last.id?_document
      rw [carries] at named
      cases deleted : last.document.softDeleted <;> simp [liveWith, named]

theorem seqNo?_entryOf (held : List Operation) (operation : Operation) :
    (entryOf held operation).document.seqNo? = some operation.seqNo := by
  rw [← operation.seqNo?_document, entryOf]
  split <;> rfl

theorem mem_numbers_parts_iff {parts : List Part} {number : Int} :
    number ∈ Engine.numbers (parts.map Part.segment) ↔
      ∃ entry ∈ parts.flatMap (·.builder.entries), ∃ seqNo,
        entry.document.seqNo? = some seqNo ∧ seqNo.toInt = number := by
  induction parts with
  | nil => simp [Engine.numbers]
  | cons part parts ih =>
      have column : part.segment.seqNos? = part.builder.column? (·.seqNo?) := rfl
      rw [List.map_cons, Engine.numbers_cons, List.mem_append, ih, List.mem_map, column,
        List.flatMap_cons]
      constructor
      · intro given
        rcases given with ⟨seqNo, member, same⟩ | ⟨entry, member, known⟩
        · obtain ⟨entry, member, known⟩ := SegmentBuilder.mem_values_column?_iff.mp member
          exact ⟨entry, List.mem_append_left _ member, seqNo, known, same⟩
        · exact ⟨entry, List.mem_append_right _ member, known⟩
      · intro given
        obtain ⟨entry, member, seqNo, known, same⟩ := given
        rcases List.mem_append.mp member with first | later
        · exact .inl ⟨seqNo, SegmentBuilder.mem_values_column?_iff.mpr ⟨entry, first, known⟩, same⟩
        · exact .inr ⟨entry, later, seqNo, known, same⟩

/-- The sequence numbers in the segments are those of the held operations. -/
theorem Layout.mem_numbers_iff {layout : Layout} {number : Int} :
    number ∈ Engine.numbers layout.segments ↔
      ∃ operation ∈ layout.operations, operation.seqNo.toInt = number := by
  rw [segments, mem_numbers_parts_iff, entries_parts]
  constructor
  · intro given
    obtain ⟨entry, member, seqNo, known, same⟩ := given
    obtain ⟨operation, isHeld, rfl⟩ := List.mem_map.mp member
    rw [seqNo?_entryOf] at known
    cases known
    exact ⟨operation, isHeld, same⟩
  · intro given
    obtain ⟨operation, member, same⟩ := given
    exact ⟨_, List.mem_map_of_mem member, operation.seqNo, seqNo?_entryOf .., same⟩

section

variable {history : List Operation} {layout : Layout}

theorem perm_heldOf
    (increasing : history.Pairwise fun first second => first.seqNo < second.seqNo)
    (once : layout.operations.Nodup) (subset : layout.operations ⊆ history) :
    layout.operations.Perm (heldOf history layout.operations) := by
  have distinct : history.Nodup := increasing.imp fun less same => by
    rw [same] at less
    exact Int64.lt_irrefl less
  refine (List.perm_ext_iff_of_nodup once (distinct.filter _)).mpr fun operation => ?_
  rw [← heldOf, mem_heldOf_iff]
  exact ⟨fun member => ⟨subset member, member⟩, fun member => member.2⟩

theorem entryOf_congr {first second : List Operation} (same : first.Perm second) :
    entryOf first = entryOf second := by
  funext operation
  have superseded : isSuperseded first operation = isSuperseded second operation := by
    unfold isSuperseded
    cases operation.id? with
    | none => rfl
    | some id => exact same.any_eq
  rw [entryOf, entryOf, superseded]

theorem eq_toList_of_perm {α : Type} {items : List α} {item? : Option α}
    (same : items.Perm item?.toList) : items = item?.toList := by
  cases item? with
  | none => exact List.perm_nil.mp same
  | some item => exact List.perm_singleton.mp same

/-- What is live in the segments is what the held operations leave. -/
theorem live_parts
    (increasing : history.Pairwise fun first second => first.seqNo < second.seqNo)
    (once : layout.operations.Nodup) (subset : layout.operations ⊆ history)
    {parts : List Part} (same : parts.Perm layout.parts) (id : Bytes) :
    liveWith id (parts.flatMap (·.builder.entries)) =
      (afterAll (heldOf history layout.operations) id).toList := by
  have held := perm_heldOf increasing once subset
  have ordered : (heldOf history layout.operations).Pairwise
      fun first second => first.seqNo < second.seqNo := increasing.filter _
  refine eq_toList_of_perm ?_
  rw [← liveWith_ordered ordered, ← entryOf_congr held]
  refine liveWith_perm ((same.flatMap_right _).trans ?_) id
  rw [entries_parts]
  exact held.map _

end

end ShardSync.Recovery
