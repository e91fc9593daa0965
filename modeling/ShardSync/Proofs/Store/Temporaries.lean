import Mathlib.Data.List.TakeWhile
import ShardSync.Proofs.Store.Promotion
import Std.Data.String.ToInt

/-!
# Temporary files

Every recovery has temporary names of its own: the number of a recovery
contains no dot, so the dot after it ends it. The main statements say which
files the operations on a store can change, and that the temporary files of one
recovery can be removed without a trace as long as no snapshot holds one.
-/

set_option autoImplicit false

namespace ShardSync.Store

theorem isDigit_of_mem_repr {number : Nat} {symbol : Char} (member : symbol ∈ number.repr.toList) :
    symbol.isDigit = true := by
  rw [Nat.toList_repr] at member
  exact Nat.isDigit_of_mem_toDigits (by decide) (by decide) member

/-- The number of a recovery is written with digits, and a sign if it is negative. -/
theorem mem_toString {recovery : Int64} {symbol : Char}
    (member : symbol ∈ (toString recovery).toList) : symbol.isDigit = true ∨ symbol = '-' := by
  change symbol ∈ (toString recovery.toInt).toList at member
  rw [Int.toString_eq_repr] at member
  cases whole : recovery.toInt with
  | ofNat number =>
      rw [whole] at member
      exact .inl (isDigit_of_mem_repr member)
  | negSucc number =>
      simp only [whole, Int.repr, String.toList_append, List.mem_append] at member
      cases member with
      | inl sign => exact .inr (by simpa using sign)
      | inr digit => exact .inl (isDigit_of_mem_repr digit)

theorem dot_not_mem_toString (recovery : Int64) : '.' ∉ (toString recovery).toList := by
  intro member
  rcases mem_toString member with digit | sign
  · exact absurd digit (by decide)
  · exact absurd sign (by decide)

theorem toList_tempName (recovery : Int64) (name : String) :
    (tempName recovery name).toList =
      tempMark.toList ++ ((toString recovery).toList ++ '.' :: name.toList) := by
  simp [tempName, tempMarkOf, String.toList_append]

/-- A name that a file may have is not spoilt by what is put in front of it. -/
theorem isValidName_tempName (recovery : Int64) {name : String}
    (valid : isValidName name = true) : isValidName (tempName recovery name) = true := by
  have begins : (tempName recovery name).toList.head? = some 'r' := by
    rw [toList_tempName]
    rfl
  have differs {other : String} (elsewhere : other.toList.head? ≠ some 'r') :
      (tempName recovery name != other) = true := by
    rw [bne_iff_ne]
    rintro rfl
    exact elsewhere begins
  have symbols {symbol : Char} (member : symbol ∈ (tempName recovery name).toList) :
      (symbol != '/' && symbol != '\\' && symbol != '\x00') = true := by
    rw [toList_tempName, List.mem_append, List.mem_append, List.mem_cons] at member
    rcases member with mark | number | rfl | own
    · have plain : tempMark.toList.all
          (fun symbol => symbol != '/' && symbol != '\\' && symbol != '\x00') = true := by decide
      exact List.all_eq_true.mp plain symbol mark
    · rcases mem_toString number with digit | rfl
      · simp only [Bool.and_eq_true, bne_iff_ne]
        refine ⟨⟨?_, ?_⟩, ?_⟩ <;>
          · rintro rfl
            exact absurd digit (by decide)
      · rfl
    · rfl
    · exact List.all_eq_true.mp (Bool.and_eq_true_iff.mp valid).2 symbol own
  unfold isValidName
  rw [differs (by decide), differs (by decide), differs (by decide),
    List.all_eq_true.mpr fun _ => symbols]
  rfl

theorem toString_injective {first second : Int64} (same : toString first = toString second) :
    first = second := by
  change toString first.toInt = toString second.toInt at same
  simp only [Int.toString_eq_repr, Int.repr_inj] at same
  exact Int64.toInt_inj.mp same

/-- Two texts without a dot that are followed by one, at the beginning of the
same text, are the same text. -/
theorem eq_of_dot_prefix {first second whole : List Char} (plain : '.' ∉ first)
    (other : '.' ∉ second) (before : first ++ ['.'] <+: whole)
    (also : second ++ ['.'] <+: whole) : first = second := by
  have ends {text : List Char} (plain : '.' ∉ text) (before : text ++ ['.'] <+: whole) :
      whole.takeWhile (· ≠ '.') = text := by
    obtain ⟨rest, rfl⟩ := before
    rw [List.append_assoc, List.takeWhile_append_of_pos]
    · simp
    · intro symbol member
      exact decide_eq_true fun same => plain (same ▸ member)
  rw [← ends plain before, ends other also]

/-- No name is a temporary name of two recoveries. -/
theorem isTempOf_unique {first second : Int64} {name : String}
    (own : isTempOf first name = true) (also : isTempOf second name = true) : first = second := by
  simp only [isTempOf, tempMarkOf, List.isPrefixOf_iff_prefix, String.toList_append,
    List.append_assoc] at own also
  obtain ⟨rest, same⟩ := (List.prefix_append _ _).trans own
  rw [← same] at own also
  refine toString_injective (String.toList_inj.mp ?_)
  exact eq_of_dot_prefix (dot_not_mem_toString first) (dot_not_mem_toString second)
    ((List.prefix_append_right_inj _).mp own) ((List.prefix_append_right_inj _).mp also)

/-- Only files whose names are `within` differ, and a new file has an admissible
name. What snapshots hold is the same. -/
structure Changes (within : String → Prop) (before after : Store) : Prop where
  elsewhere : ∀ name, ¬ within name → after.files[name]? = before.files[name]?
  names : ∀ name ∈ after.files, name ∈ before.files ∨ isValidName name = true
  pins : after.pins = before.pins

namespace Changes

variable {within : String → Prop} {first second third : Store}

theorem refl (store : Store) : Changes within store store where
  elsewhere _ _ := rfl
  names _ member := .inl member
  pins := rfl

theorem trans (earlier : Changes within first second) (later : Changes within second third) :
    Changes within first third where
  elsewhere name outside := (later.elsewhere name outside).trans (earlier.elsewhere name outside)
  names name member := by
    cases later.names name member with
    | inl before => exact earlier.names name before
    | inr valid => exact .inr valid
  pins := later.pins.trans earlier.pins

theorem mono {wider : String → Prop} (changes : Changes within first second)
    (included : ∀ name, within name → wider name) : Changes wider first second where
  elsewhere name outside := changes.elsewhere name fun inside => outside (included name inside)
  names := changes.names
  pins := changes.pins

end Changes

section Operations

variable {within : String → Prop} {store after : Store} {name : String}

theorem compare_ne_of_within {other : String} (inside : within name) (outside : ¬ within other) :
    compare name other ≠ .eq := by
  intro same
  rw [Std.LawfulEqOrd.eq_of_compare same] at inside
  exact outside inside

theorem changes_insert (inside : within name) (valid : isValidName name = true)
    (content : Content) :
    Changes within store { store with files := store.files.insert name content } where
  elsewhere other outside := by
    simp [Std.ExtTreeMap.getElem?_insert, compare_ne_of_within inside outside]
  names other member := by
    cases Std.ExtTreeMap.mem_insert.mp member with
    | inl same => exact .inr (Std.LawfulEqOrd.eq_of_compare same ▸ valid)
    | inr before => exact .inl before
  pins := rfl

theorem changes_erase (inside : within name) :
    Changes within store { store with files := store.files.erase name } where
  elsewhere other outside := by
    simp [Std.ExtTreeMap.getElem?_erase, compare_ne_of_within inside outside]
  names other member := .inl (Std.ExtTreeMap.mem_of_mem_erase member)
  pins := rfl

theorem createSized_eq_ok_iff {length : Nat} :
    store.createSized name length = (.ok (), after) ↔
      isValidName name = true ∧ length ≤ maxLength ∧
        after = { store with files := store.files.insert name (.blank length) } := by
  unfold createSized checkName
  by_cases valid : isValidName name = true
  · by_cases fits : length ≤ maxLength
    · simp [valid, fits, eq_comm]
    · simp [valid, fits]
  · simp [valid]

theorem changes_createSized (inside : within name) (length : Nat) :
    Changes within store (store.createSized name length).2 := by
  unfold createSized checkName
  by_cases valid : isValidName name = true
  · by_cases fits : length ≤ maxLength
    · simpa [valid, fits] using changes_insert inside valid (.blank length)
    · simpa [valid, fits] using changes_insert inside valid {}
  · simpa [valid] using Changes.refl store

theorem changes_writeAt (inside : within name) {position : Nat} {data : Bytes}
    (written : store.writeAt name position data = .ok after) : Changes within store after := by
  obtain ⟨content, found, rfl⟩ := writeAt_eq_ok_iff.mp written
  exact changes_insert inside (content_eq_ok_iff.mp found).1 _

theorem changes_delete (inside : within name) (deleted : store.delete name = .ok after) :
    Changes within store after := by
  obtain ⟨_, _, rfl⟩ := delete_eq_ok_iff.mp deleted
  exact changes_erase inside

theorem changes_rename {destination : String} (inside : within name) (also : within destination)
    (renamed : store.rename name destination = .ok after) : Changes within store after := by
  obtain ⟨_, valid, content, _, rfl⟩ := rename_eq_ok_iff.mp renamed
  exact (changes_erase inside).trans (changes_insert also valid content)

theorem changes_deleteAll {names : List String} (inside : ∀ name ∈ names, within name) :
    Changes within store (store.deleteAll names).2 := by
  induction names generalizing store with
  | nil => exact .refl store
  | cons name names ih =>
      rw [List.forall_mem_cons] at inside
      unfold deleteAll
      cases deleted : store.delete name with
      | error error => exact .refl store
      | ok after => exact (changes_delete inside.1 deleted).trans (ih inside.2)

theorem changes_renameAll {files : List (String × String)}
    (inside : ∀ file ∈ files, within file.1 ∧ within file.2) :
    Changes within store (store.renameAll files).2 := by
  induction files generalizing store with
  | nil => exact .refl store
  | cons file files ih =>
      rw [List.forall_mem_cons] at inside
      unfold renameAll
      cases renamed : store.rename file.2 file.1 with
      | error error => exact .refl store
      | ok after => exact (changes_rename inside.1.2 inside.1.1 renamed).trans (ih inside.2)

/-- Promoting files changes their names and removes live files. -/
theorem changes_promote {files : List (String × String)} {keep : List String}
    (inside : ∀ file ∈ files, within file.1 ∧ within file.2)
    (live : ∀ name, isTemp name = false → within name) :
    Changes within store (store.promote files keep).2 := by
  have moving : Changes within store (store.renameAll files).2 := changes_renameAll inside
  unfold promote
  split
  · exact .refl store
  · split
    · next stopped =>
        rw [stopped] at moving
        exact moving
    · next renamed ended =>
        rw [ended] at moving
        refine moving.trans (changes_deleteAll fun name member => live name ?_)
        have listed := (List.mem_filter.mp (List.mem_filter.mp member).1).2
        simpa using listed

theorem changes_removeTemps (store : Store) (recovery : Int64) :
    Changes (isTempOf recovery · = true) store (store.removeTemps recovery).2 :=
  changes_deleteAll fun _ member => (List.mem_filter.mp member).2

end Operations

/-- Temporary files that can be removed one by one are all removed. -/
theorem files_removeTemps {store : Store} {recovery : Int64}
    (removable : ∀ name ∈ store.files, isTempOf recovery name = true →
      store.isRemovable name = true) (name : String) :
    (store.removeTemps recovery).2.files[name]? =
      if isTempOf recovery name then none else store.files[name]? := by
  have all : (store.files.keys.filter (isTempOf recovery)).takeWhile store.isRemovable =
      store.files.keys.filter (isTempOf recovery) := by
    rw [List.takeWhile_eq_self_iff]
    intro name member
    rw [List.mem_filter, Std.ExtTreeMap.mem_keys] at member
    exact removable name member.1 member.2
  simp only [removeTemps, files_deleteAll, all, List.mem_filter, Std.ExtTreeMap.mem_keys]
  by_cases own : isTempOf recovery name = true
  · by_cases there : name ∈ store.files
    · simp [own, there]
    · simp [own, there]
  · simp [own]

/-- Renaming temporary files takes them away, and leaves all others there. -/
theorem temps_renameAll {store after : Store} {files : List (String × String)}
    (permanent : ∀ file ∈ files, isTemp file.1 = false)
    (renamed : store.renameAll files = (.ok (), after)) {name : String}
    (temp : isTemp name = true) :
    after.files[name]? = if name ∈ files.map (·.2) then none else store.files[name]? := by
  induction files generalizing store with
  | nil =>
      cases renamed
      rfl
  | cons file files ih =>
      rw [List.forall_mem_cons] at permanent
      unfold renameAll at renamed
      cases first : store.rename file.2 file.1 with
      | error error =>
          rw [first] at renamed
          cases renamed
      | ok between =>
          rw [first] at renamed
          obtain ⟨_, _, content, _, rfl⟩ := rename_eq_ok_iff.mp first
          have elsewhere : compare file.1 name ≠ .eq := by
            intro same
            rw [Std.LawfulEqOrd.eq_of_compare same, temp] at permanent
            cases permanent.1
          rw [ih permanent.2 renamed, Std.ExtTreeMap.getElem?_insert, if_neg elsewhere,
            Std.ExtTreeMap.getElem?_erase]
          by_cases own : name = file.2
          · simp [own]
          · have other : compare file.2 name ≠ .eq :=
              fun same => own (Std.LawfulEqOrd.eq_of_compare same).symm
            rw [if_neg other]
            simp only [List.map_cons, List.mem_cons, own, false_or]

/-- Promoting files takes away the temporary ones they were, and no others. -/
theorem temps_promote {store after : Store} {files : List (String × String)} {keep : List String}
    {removed : List String} (permanent : ∀ file ∈ files, isTemp file.1 = false)
    (promoted : store.promote files keep = (.ok removed, after)) {name : String}
    (temp : isTemp name = true) :
    after.files[name]? = if name ∈ files.map (·.2) then none else store.files[name]? := by
  unfold promote at promoted
  split at promoted
  · cases promoted
  · cases moved : store.renameAll files with
    | mk outcome between =>
        rw [moved] at promoted
        cases outcome with
        | error error => cases promoted
        | ok _ =>
            have kept : after.files[name]? = between.files[name]? := by
              simp only [removeStale, Prod.mk.injEq] at promoted
              rw [← promoted.2, files_deleteAll, if_neg]
              intro member
              have stale := mem_stale_iff.mp ((List.takeWhile_prefix _).subset member)
              rw [live_of_isTemp temp] at stale
              cases stale.1
            rw [kept, temps_renameAll permanent moved temp]

/-- All files have admissible names, and snapshots hold live files only. -/
structure WellNamed (store : Store) : Prop where
  valid : ∀ name ∈ store.files, isValidName name = true
  unheld : ∀ name, isTemp name = true → store.isPinned name = false

theorem WellNamed.isRemovable {store : Store} {name : String} (wellNamed : store.WellNamed)
    (there : name ∈ store.files) (temp : isTemp name = true) : store.isRemovable name = true := by
  simp [Store.isRemovable, wellNamed.valid name there, wellNamed.unheld name temp]

theorem WellNamed.changes {within : String → Prop} {before after : Store}
    (wellNamed : before.WellNamed) (changes : Changes within before after) : after.WellNamed where
  valid name member := by
    cases changes.names name member with
    | inl there => exact wellNamed.valid name there
    | inr valid => exact valid
  unheld name temp := by
    unfold isPinned
    rw [changes.pins]
    exact wellNamed.unheld name temp

end ShardSync.Store
