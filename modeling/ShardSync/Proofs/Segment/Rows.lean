import ShardSync.Proofs.Segment.Mask
import ShardSync.Proofs.Segment.Search

/-!
# Rows

A row is what searches can see of one position: the ids that it carries, its
numbers, and whether it is live. A segment is the list of its rows. Sealing a builder
keeps the rows of its entries, and deleting a position kills its row.
-/

set_option autoImplicit false

namespace ShardSync

structure Row where
  carries : Bytes → Bool
  version? : Option Int64
  seqNo? : Option Int64
  primaryTerm? : Option Int64
  isLive : Bool

namespace Row

def isLiveWith (row : Row) (id : Bytes) : Bool := row.isLive && row.carries id

def kill (row : Row) : Row := { row with isLive := false }

def ofPending (entry : Pending) : Row where
  carries id := entry.document.id? == some id
  version? := entry.document.version?
  seqNo? := entry.document.seqNo?
  primaryTerm? := entry.document.primaryTerm?
  isLive := entry.isLive

theorem isLiveWith_iff {row : Row} {id : Bytes} :
    row.isLiveWith id = true ↔ row.isLive = true ∧ row.carries id = true :=
  Bool.and_eq_true_iff

@[simp] theorem isLiveWith_kill (row : Row) (id : Bytes) : row.kill.isLiveWith id = false := rfl

/-- For each id at most one of the rows is live. -/
def AreSingle (rows : List Row) : Prop :=
  ∀ id, (rows.filter (·.isLiveWith id)).length ≤ 1

/-- The rows after the live ones with an id have been killed. -/
def without (id : Bytes) (rows : List Row) : List Row :=
  rows.map fun row => if row.isLiveWith id then row.kill else row

theorem AreSingle.eq {rows : List Row} (single : AreSingle rows) {id : Bytes} {first second : Row}
    (member : first ∈ rows) (live : first.isLiveWith id = true) (memberToo : second ∈ rows)
    (liveToo : second.isLiveWith id = true) : first = second := by
  have listed : first ∈ rows.filter (·.isLiveWith id) := List.mem_filter.mpr ⟨member, live⟩
  have listedToo : second ∈ rows.filter (·.isLiveWith id) :=
    List.mem_filter.mpr ⟨memberToo, liveToo⟩
  have short := single id
  generalize rows.filter (·.isLiveWith id) = found at listed listedToo short
  cases found with
  | nil => cases listed
  | cons only others =>
      have alone : others = [] := List.eq_nil_of_length_eq_zero (by
        rw [List.length_cons] at short
        omega)
      rw [alone] at listed listedToo
      rw [List.mem_singleton.mp listed, List.mem_singleton.mp listedToo]

theorem of_find? {rows : List Row} {id : Bytes} {row : Row}
    (found : rows.find? (·.isLiveWith id) = some row) :
    row ∈ rows ∧ row.isLiveWith id = true := by
  have live := List.find?_some found
  exact ⟨List.mem_of_find?_eq_some found, live⟩

theorem AreSingle.find?_eq_some {rows : List Row} (single : AreSingle rows) {id : Bytes}
    {row : Row} (member : row ∈ rows) (live : row.isLiveWith id = true) :
    rows.find? (·.isLiveWith id) = some row := by
  cases found : rows.find? (·.isLiveWith id) with
  | none => exact absurd live (List.find?_eq_none.mp found row member)
  | some other =>
      obtain ⟨listed, carries⟩ := of_find? found
      rw [single.eq listed carries member live]

theorem without_of_none {id : Bytes} {rows : List Row}
    (none : ∀ row ∈ rows, row.isLiveWith id = false) : without id rows = rows := by
  refine (List.map_congr_left fun row member => ?_).trans (List.map_id rows)
  rw [none row member, if_neg Bool.false_ne_true, id_eq]

/-- The only live row with an id is killed. -/
theorem without_of_split {id : Bytes} {before later : List Row} {row : Row}
    (single : AreSingle (before ++ row :: later)) (live : row.isLiveWith id = true) :
    without id (before ++ row :: later) = before ++ row.kill :: later := by
  have short := single id
  rw [List.filter_append, List.filter_cons, if_pos live, List.length_append, List.length_cons]
    at short
  have none {rows : List Row} (empty : (rows.filter (·.isLiveWith id)).length = 0) :
      rows.map (fun row => if row.isLiveWith id then row.kill else row) = rows :=
    without_of_none fun row member => eq_false_of_ne_true
      (List.filter_eq_nil_iff.mp (List.eq_nil_of_length_eq_zero empty) row member)
  rw [without, List.map_append, List.map_cons, none (by omega), none (by omega), if_pos live]

theorem isLiveWith_without {id : Bytes} {rows : List Row} {row : Row}
    (member : row ∈ without id rows) : row.isLiveWith id = false := by
  obtain ⟨original, _, rfl⟩ := List.mem_map.mp member
  split
  · exact isLiveWith_kill original id
  · next dead => exact eq_false_of_ne_true dead

/-- A row that is live is left alone. -/
theorem mem_of_mem_without {id : Bytes} {rows : List Row} {row : Row}
    (member : row ∈ without id rows) (live : row.isLive = true) : row ∈ rows := by
  obtain ⟨original, known, rfl⟩ := List.mem_map.mp member
  split at live
  · cases live
  · next dead =>
      rw [if_neg dead]
      exact known

theorem mem_without_of_mem {id : Bytes} {rows : List Row} {row : Row} (member : row ∈ rows)
    (other : row.isLiveWith id = false) : row ∈ without id rows :=
  List.mem_map.mpr ⟨row, member, by rw [other, if_neg Bool.false_ne_true]⟩

theorem AreSingle.without {rows : List Row} (single : AreSingle rows) (id : Bytes) :
    AreSingle (without id rows) := by
  intro other
  refine Nat.le_trans ?_ (single other)
  rw [← List.countP_eq_length_filter, ← List.countP_eq_length_filter, Row.without, List.countP_map]
  refine List.countP_mono_left fun row _ live => ?_
  dsimp only [Function.comp_apply] at live
  split at live
  · cases live
  · exact live

theorem AreSingle.perm {rows others : List Row} (single : AreSingle rows)
    (same : rows.Perm others) : AreSingle others := by
  intro id
  rw [← (same.filter _).length_eq]
  exact single id

/-- A row may be added if no other one is live with its ids. -/
theorem AreSingle.concat {rows : List Row} (single : AreSingle rows) {row : Row}
    (free : ∀ id, row.isLiveWith id = true → ∀ other ∈ rows, other.isLiveWith id = false) :
    AreSingle (rows ++ [row]) := by
  intro id
  rw [List.filter_append]
  cases live : row.isLiveWith id with
  | false =>
      rw [List.filter_cons, live, if_neg Bool.false_ne_true, List.filter_nil, List.append_nil]
      exact single id
  | true =>
      have none : rows.filter (·.isLiveWith id) = [] :=
        List.filter_eq_nil_iff.mpr fun other member => by
          rw [free id live other member]
          exact Bool.false_ne_true
      rw [none, List.nil_append, List.filter_cons, if_pos live]
      exact Nat.le_refl _

end Row

namespace Segment

def row (segment : Segment) (position : Nat) : Row where
  carries id := ((segment.postings? id).getD []).contains position
  version? := segment.versions?.bind (·.get? position)
  seqNo? := segment.seqNos?.bind (·.get? position)
  primaryTerm? := segment.primaryTerms?.bind (·.get? position)
  isLive := segment.isLive position

def rows (segment : Segment) : List Row := (List.range segment.maxDoc).map segment.row

/-- The live positions that carry an id. -/
def livePositions (segment : Segment) (id : Bytes) : List Nat :=
  (List.range segment.maxDoc).filter fun position => (segment.row position).isLiveWith id

/-- The live positions of segments are where their live rows are. -/
theorem areSingle_rows {segments : List Segment}
    (single : ∀ id, (segments.flatMap (·.livePositions id)).length ≤ 1) :
    Row.AreSingle (segments.flatMap rows) := by
  intro id
  have located : (segments.flatMap rows).filter (·.isLiveWith id) =
      segments.flatMap fun segment => (segment.livePositions id).map segment.row := by
    rw [List.filter_flatMap]
    refine List.flatMap_congr fun segment _ => ?_
    rw [rows, List.filter_map]
    rfl
  have counted := single id
  rw [List.length_flatMap] at counted
  rw [located, List.length_flatMap]
  simp only [List.length_map]
  exact counted

theorem length_rows (segment : Segment) : segment.rows.length = segment.maxDoc := by
  rw [rows, List.length_map, List.length_range]

theorem getElem?_rows {segment : Segment} {position : Nat} (inside : position < segment.maxDoc) :
    segment.rows[position]? = some (segment.row position) := by
  rw [rows, List.getElem?_map, List.getElem?_range inside]
  rfl

theorem numDocs_eq_countP {segment : Segment} (masked : segment.IsMasked) :
    segment.numDocs = segment.rows.countP (·.isLive) := by
  rw [numDocs_eq masked, rows, List.countP_map]
  rfl

/-- Where a search finds an id there is a live row with it. -/
theorem isLiveWith_of_search? {segment : Segment} {id : Bytes} {position : Nat}
    (found : Lookup.search? segment id = some position) :
    (segment.row position).isLiveWith id = true := by
  have member := List.mem_of_getLast? found
  rw [List.mem_filter] at member
  rw [Row.isLiveWith_iff, row]
  exact ⟨member.2, List.contains_iff_mem.mpr member.1⟩

theorem search?_eq_some {segment : Segment} (masked : segment.IsMasked) {id : Bytes}
    {position : Nat} (found : Lookup.search? segment id = some position) :
    position < segment.maxDoc ∧ (segment.row position).isLiveWith id = true :=
  have live := isLiveWith_of_search? found
  ⟨lt_of_isLive masked (Row.isLiveWith_iff.mp live).1, live⟩

theorem search?_eq_none {segment : Segment} {id : Bytes}
    (missing : Lookup.search? segment id = none) :
    ∀ row ∈ segment.rows, row.isLiveWith id = false := by
  intro row member
  obtain ⟨position, _, rfl⟩ := List.mem_map.mp member
  refine eq_false_of_ne_true fun live => ?_
  rw [Row.isLiveWith_iff, Segment.row] at live
  have listed : position ∈ ((segment.postings? id).getD []).filter segment.isLive :=
    List.mem_filter.mpr ⟨List.contains_iff_mem.mp live.2, live.1⟩
  rw [Lookup.search?, List.getLast?_eq_none_iff] at missing
  rw [missing] at listed
  cases listed

theorem isLive_withSoftDeleted {segment : Segment} {position : Nat}
    (inside : position < segment.maxDoc) (generation : Generation) (other : Nat) :
    (segment.withSoftDeleted position generation).isLive other =
      if position = other then false else segment.isLive other := by
  have kept : (segment.mask?.getD (.replicate segment.maxDoc true))[other]?.getD false =
      segment.isLive other := by
    unfold isLive
    cases segment.mask? with
    | none => by_cases within : other < segment.maxDoc <;> simp [within]
    | some mask => rfl
  rw [withSoftDeleted, if_pos inside, ← kept, isLive]
  dsimp only
  rw [List.getElem?_set]
  split
  · split <;> rfl
  · rfl

theorem generation_withSoftDeleted (segment : Segment) (position : Nat)
    (generation : Generation) :
    (segment.withSoftDeleted position generation).generation = generation := by
  unfold withSoftDeleted
  split <;> rfl

theorem rows_withSoftDeleted {segment : Segment} {position : Nat}
    (inside : position < segment.maxDoc) (generation : Generation) :
    (segment.withSoftDeleted position generation).rows = segment.rows.modify position Row.kill := by
  have size : (segment.withSoftDeleted position generation).maxDoc = segment.maxDoc := by
    rw [withSoftDeleted, if_pos inside]
  have row (other : Nat) : (segment.withSoftDeleted position generation).row other =
      if position = other then (segment.row other).kill else segment.row other := by
    rw [Segment.row, isLive_withSoftDeleted inside, withSoftDeleted, if_pos inside]
    split <;> rfl
  refine List.ext_getElem? fun other => ?_
  rw [List.getElem?_modify]
  by_cases within : other < segment.maxDoc
  · rw [getElem?_rows within, getElem?_rows (by rw [size]; exact within), row]
    split <;> rfl
  · have beyond := Nat.le_of_not_lt within
    rw [List.getElem?_eq_none (by rw [length_rows, size]; exact beyond),
      List.getElem?_eq_none (by rw [length_rows]; exact beyond)]
    rfl

theorem mem_postings_build_iff {builder : SegmentBuilder} {generation : Generation} {id : Bytes}
    {position : Nat} {entry : Pending} (there : builder.entries[position]? = some entry) :
    position ∈ ((builder.build generation).postings? id).getD [] ↔
      entry.document.id? = some id := by
  rw [SegmentBuilder.postings?_build, List.mem_map]
  constructor
  · rintro ⟨⟨other, _⟩, member, rfl⟩
    rw [List.mem_filter, beq_iff_eq, SegmentBuilder.named, List.mem_filterMap] at member
    obtain ⟨⟨⟨found, index⟩, listed, carried⟩, rfl⟩ := member
    obtain ⟨key, carries, same⟩ := Option.map_eq_some_iff.mp carried
    cases same
    rw [List.mk_mem_zipIdx_iff_getElem?, there] at listed
    cases listed
    exact carries
  · intro carries
    refine ⟨(id, position), List.mem_filter.mpr ⟨?_, beq_iff_eq.mpr rfl⟩, rfl⟩
    rw [SegmentBuilder.named, List.mem_filterMap]
    exact ⟨(entry, position), List.mk_mem_zipIdx_iff_getElem?.mpr there, by simp [carries]⟩

theorem rows_build (builder : SegmentBuilder) (generation : Generation) :
    (builder.build generation).rows = builder.entries.map Row.ofPending := by
  refine List.ext_getElem? fun position => ?_
  rw [List.getElem?_map]
  by_cases within : position < builder.size
  · rw [getElem?_rows (show position < (builder.build generation).maxDoc from within)]
    obtain ⟨entry, there⟩ : ∃ entry, builder.entries[position]? = some entry :=
      ⟨_, List.getElem?_eq_getElem within⟩
    have column (field : Document → Option Int64) :
        (builder.column? field).bind (·.get? position) = field entry.document := by
      rw [SegmentBuilder.column?_get?, there, Option.bind_some]
    have carries (id : Bytes) : (((builder.build generation).postings? id).getD []).contains
        position = (entry.document.id? == some id) := by
      rw [Bool.eq_iff_iff, List.contains_iff_mem, mem_postings_build_iff there, beq_iff_eq]
    have live : (builder.build generation).isLive position = entry.isLive := by
      rw [SegmentBuilder.isLive_build, there, Option.any_some]
    have versions := column (·.version?)
    have seqNos := column (·.seqNo?)
    have terms := column (·.primaryTerm?)
    rw [there, Option.map_some, Option.some_inj, row, live, funext carries, Row.ofPending]
    simp only [SegmentBuilder.build, versions, seqNos, terms]
  · rw [List.getElem?_eq_none (by rw [length_rows]; exact Nat.le_of_not_lt within),
      List.getElem?_eq_none (Nat.le_of_not_lt within)]
    rfl

end Segment

end ShardSync
