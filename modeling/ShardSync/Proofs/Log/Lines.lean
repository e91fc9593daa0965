import Mathlib.Data.List.Nodup
import Mathlib.Data.String.Basic
import Mathlib.Order.Compare
import Mathlib.Tactic.SplitIfs
import ShardSync.Log.Line
import ShardSync.Proofs.Json.Grammar
import ShardSync.Proofs.Text.Uuid

/-!
# What a log line says

Whatever texts are logged, a line is one object of the grammar and holds no line break but its
last, and what it was written for is read back from it. So no event, name or text can be made
up to look like another line, or like more than one.
-/

set_option autoImplicit false

namespace ShardSync.Log

open Json

/-! ## What is written between quotes -/

/-- A control character is small enough for two hexadecimal digits. -/
theorem toNat_lt_of_isControl {symbol : Char} (control : isControl symbol = true) :
    symbol.toNat < 160 := by
  simp only [isControl, Bool.or_eq_true, Bool.and_eq_true, decide_eq_true_iff] at control
  omega

theorem spells_escapeSymbol (symbol : Char) : Spells (escapeSymbol symbol) symbol := by
  have escape {letter other : Char} (same : symbol = other)
      (known : (letter, other) ∈ escapes) : Spells ['\\', letter] symbol :=
    same ▸ .escape known
  unfold escapeSymbol
  split_ifs with unquoted unescaped newline carriage tab control
  · exact escape unquoted (by decide)
  · exact escape unescaped (by decide)
  · exact escape newline (by decide)
  · exact escape carriage (by decide)
  · exact escape tab (by decide)
  · -- A control character is no surrogate and fits in the four digits.
    have small := toNat_lt_of_isControl control
    have read := Text.Hex.parse?_digits 4 symbol.toNat
    rw [Nat.mod_eq_of_lt (by omega)] at read
    have spells := Spells.unit (show Text.Hex.parse? [_, _, _, _] = some symbol.toNat from read)
      (.inl (by omega))
    rw [Char.ofNat_toNat] at spells
    exact spells
  · refine .plain ⟨?_, unquoted, unescaped⟩
    simp only [isControl, Bool.or_eq_true, decide_eq_true_iff, not_or] at control
    omega

theorem spelling_escaped (symbols : List Char) :
    Spelling (symbols.flatMap escapeSymbol) symbols := by
  induction symbols with
  | nil => exact .nil
  | cons symbol symbols ih => exact .cons (spells_escapeSymbol symbol) ih

theorem quotes_quote (text : String) : Quotes (quote text) text :=
  .intro (spelling_escaped text.toList)

theorem newline_not_mem_quote (text : String) : '\n' ∉ quote text := fun member =>
  absurd ((quotes_quote text).visible _ member) (by decide)

namespace Line

/-! ## What a line is as an object -/

theorem member_renderMember (member : String × String) : Member (renderMember member) member := by
  have stands := Member.intro blanks_nil (quotes_quote member.1) blanks_nil blanks_nil
    (quotes_quote member.2) blanks_nil
  simpa [renderMember] using stands

theorem members_intersperse (member : String × String) (members : List (String × String)) :
    Members ((((member :: members).map renderMember).intersperse [',']).flatten)
      (member :: members) := by
  induction members generalizing member with
  | nil => simpa using Members.single (member_renderMember member)
  | cons next members ih => simpa using Members.cons (member_renderMember member) (ih next)

/-- What stands in a line in front of its line break. -/
def body (line : Line) : List Char :=
  '\x7b' :: ((line.members.map renderMember).intersperse [',']).flatten ++ ['\x7d']

theorem toList_render (line : Line) : line.render.toList = line.body ++ ['\n'] := by
  simp [render, body]

theorem newline_not_mem_intersperse (members : List (String × String)) :
    '\n' ∉ (((members.map renderMember).intersperse [',']).flatten) := by
  have single (member : String × String) : '\n' ∉ renderMember member := by
    simp [renderMember, newline_not_mem_quote]
  induction members with
  | nil => exact List.not_mem_nil
  | cons member members ih =>
      cases members with
      | nil => simpa using single member
      | cons next members =>
          have comma : '\n' ≠ ',' := by decide
          simpa [single member, comma] using ih

theorem newline_not_mem_body (line : Line) : '\n' ∉ line.body := by
  have members := newline_not_mem_intersperse line.members
  simpa [body] using members

/-- A line is one object, with the event, the severity and the sorted fields as its members. -/
theorem textObject_render (line : Line) : TextObject line.render.toList line.members := by
  have newline : Blanks ['\n'] := List.forall_mem_singleton.mpr rfl
  have object := TextObject.filled blanks_nil
    (members_intersperse ("event", line.event)
      (("severity", line.severity.name) :: line.sortedFields)) newline
  rw [toList_render, body, List.append_assoc]
  exact object

theorem ofName?_name (severity : Severity) : Severity.ofName? severity.name = some severity := by
  cases severity <;> rfl

theorem render_eq_iff {line other : Line} :
    line.render = other.render ↔ line.severity = other.severity ∧ line.event = other.event ∧
      line.sortedFields = other.sortedFields := by
  constructor
  · intro same
    have object := textObject_render other
    rw [← same] at object
    have members := (textObject_render line).unique object
    simp only [Line.members, List.cons.injEq, Prod.mk.injEq, true_and] at members
    obtain ⟨event, severity, fields⟩ := members
    have severity := congrArg Severity.ofName? severity
    rw [ofName?_name, ofName?_name] at severity
    exact ⟨Option.some.inj severity, event, fields⟩
  · rintro ⟨severity, event, fields⟩
    rw [render, render, Line.members, Line.members, severity, event, fields]

/-! ## The order of the fields -/

/-- Sorted by their keys, and in their old order where keys are the same. -/
structure IsStablySorted (fields sorted : List (String × String)) : Prop where
  perm : sorted.Perm fields
  ordered : sorted.Pairwise fun first second => first.1 ≤ second.1
  stable : ∀ key, sorted.filter (·.1 = key) = fields.filter (·.1 = key)

theorem compare_ne_gt_iff {first second : String} :
    (compare first second != .gt) = true ↔ first ≤ second := by
  rw [bne_iff_ne, ne_eq, compare_gt_iff_gt, not_lt]

theorem isStablySorted_sortedFields (line : Line) :
    IsStablySorted line.fields line.sortedFields := by
  have trans (first second third : String × String)
      (less : (compare first.1 second.1 != .gt) = true)
      (lessToo : (compare second.1 third.1 != .gt) = true) :
      (compare first.1 third.1 != .gt) = true :=
    compare_ne_gt_iff.mpr ((compare_ne_gt_iff.mp less).trans (compare_ne_gt_iff.mp lessToo))
  have total (first second : String × String) :
      ((compare first.1 second.1 != .gt) || (compare second.1 first.1 != .gt)) = true := by
    rw [Bool.or_eq_true, compare_ne_gt_iff, compare_ne_gt_iff]
    exact le_total ..
  have perm : line.sortedFields.Perm line.fields := List.mergeSort_perm ..
  refine ⟨perm, ?_, fun key => ?_⟩
  · exact (List.pairwise_mergeSort trans total line.fields).imp compare_ne_gt_iff.mp
  · -- Fields with one key are in order as they stand, so sorting keeps them as a sublist.
    have alike : (line.fields.filter (·.1 = key)).Pairwise
        fun first second => (compare first.1 second.1 != .gt) = true := by
      refine List.pairwise_filter.mpr (List.pairwise_of_forall fun first second same sameToo => ?_)
      rw [compare_ne_gt_iff, of_decide_eq_true same, of_decide_eq_true sameToo]
    have sublist := (List.sublist_mergeSort trans total alike List.filter_sublist).filter
      (·.1 = key)
    simp only [List.filter_filter, Bool.and_self] at sublist
    exact (sublist.eq_of_length (perm.filter _).length_eq.symm).symm

theorem mem_iff_of_filter_eq {fields others : List (String × String)}
    (same : ∀ key, fields.filter (·.1 = key) = others.filter (·.1 = key))
    (field : String × String) : field ∈ fields ↔ field ∈ others := by
  have within := congrArg (field ∈ ·) (same field.1)
  simpa using within

/-- Sorted lists that hold the same under every key are the same. -/
theorem eq_of_filter_eq {fields others : List (String × String)}
    (ordered : fields.Pairwise fun first second => first.1 ≤ second.1)
    (orderedToo : others.Pairwise fun first second => first.1 ≤ second.1)
    (same : ∀ key, fields.filter (·.1 = key) = others.filter (·.1 = key)) : fields = others := by
  induction fields generalizing others with
  | nil =>
      exact (List.eq_nil_iff_forall_not_mem.mpr fun field => by
        simp [← mem_iff_of_filter_eq same]).symm
  | cons first fields ih =>
      have mem_iff := mem_iff_of_filter_eq same
      cases others with
      | nil => exact absurd ((mem_iff first).mp List.mem_cons_self) List.not_mem_nil
      | cons second others =>
          obtain ⟨least, rest⟩ := List.pairwise_cons.mp ordered
          obtain ⟨leastToo, restToo⟩ := List.pairwise_cons.mp orderedToo
          have below : first.1 ≤ second.1 := by
            rcases List.mem_cons.mp ((mem_iff second).mpr List.mem_cons_self) with rfl | later
            · exact le_rfl
            · exact least second later
          have above : second.1 ≤ first.1 := by
            rcases List.mem_cons.mp ((mem_iff first).mp List.mem_cons_self) with rfl | later
            · exact le_rfl
            · exact leastToo first later
          -- Both lists start with their first field under the least key of all.
          have heads := same first.1
          simp only [List.filter_cons, le_antisymm above below, decide_true, if_true,
            List.cons.injEq] at heads
          obtain ⟨rfl, -⟩ := heads
          have tails (key : String) : fields.filter (·.1 = key) = others.filter (·.1 = key) := by
            have whole := same key
            rw [List.filter_cons, List.filter_cons] at whole
            split at whole
            · exact List.tail_eq_of_cons_eq whole
            · exact whole
          rw [ih rest restToo tails]

/-- What sorting gives is settled by being sorted stably. -/
theorem isStablySorted_iff (line : Line) (sorted : List (String × String)) :
    IsStablySorted line.fields sorted ↔ sorted = line.sortedFields := by
  have stands := isStablySorted_sortedFields line
  constructor
  · intro other
    exact eq_of_filter_eq other.ordered stands.ordered fun key =>
      (other.stable key).trans (stands.stable key).symm
  · rintro rfl
    exact stands

/-- Where no key is there twice, the order that the fields came in is lost. -/
theorem sortedFields_eq_of_perm {line other : Line} (perm : other.fields.Perm line.fields)
    (distinct : (line.fields.map (·.1)).Nodup) : other.sortedFields = line.sortedFields := by
  have stands := isStablySorted_sortedFields line
  have standsToo := isStablySorted_sortedFields other
  refine List.Perm.eq_of_pairwise (fun first second member memberToo below above => ?_)
    standsToo.ordered stands.ordered (standsToo.perm.trans (perm.trans stands.perm.symm))
  exact List.inj_on_of_nodup_map distinct ((standsToo.perm.trans perm).mem_iff.mp member)
    (stands.perm.mem_iff.mp memberToo) (le_antisymm below above)

/-- Whatever is logged, a line ends where it has its only line break, is one object that says what
was logged and nothing else, and is the same as another line only when both say the same. -/
theorem render_unforgeable (line : Line) :
    (∃ body, line.render.toList = body ++ ['\n'] ∧ '\n' ∉ body) ∧
      (∀ members, TextObject line.render.toList members ↔
        members = ("event", line.event) :: ("severity", line.severity.name) ::
          line.sortedFields) ∧
      Json.parse? line.render = some (Json.ofTexts <| ("event", line.event) ::
        ("severity", line.severity.name) :: line.sortedFields) ∧
      (∀ sorted, IsStablySorted line.fields sorted ↔ sorted = line.sortedFields) ∧
      (∀ other : Line, line.render = other.render ↔ line.severity = other.severity ∧
        line.event = other.event ∧ line.sortedFields = other.sortedFields) ∧
      ∀ other : Line, other.severity = line.severity → other.event = line.event →
        other.fields.Perm line.fields → (line.fields.map (·.1)).Nodup →
          other.render = line.render := by
  refine ⟨⟨line.body, line.toList_render, line.newline_not_mem_body⟩, fun members => ?_,
    line.textObject_render.parse?, line.isStablySorted_iff, fun other => render_eq_iff,
    fun other severity event perm distinct => ?_⟩
  · constructor
    · exact fun object => object.unique line.textObject_render
    · rintro rfl
      exact line.textObject_render
  · exact render_eq_iff.mpr ⟨severity, event, sortedFields_eq_of_perm perm distinct⟩

end Line

end ShardSync.Log
