import ShardSync.Store.Basic

/-!
# Files of a store

When an operation on one file succeeds, and what it makes of the files. An
operation never changes what snapshots hold.
-/

set_option autoImplicit false

namespace ShardSync.Store

theorem content_eq_ok_iff {store : Store} {name : String} {content : Content} :
    store.content name = .ok content ↔
      isValidName name = true ∧ store.files[name]? = some content := by
  unfold Store.content checkName
  by_cases valid : isValidName name = true
  · cases found : store.files[name]? <;>
      simp [valid, bind, Except.bind, pure, Except.pure, throw, throwThe, MonadExceptOf.throw]
  · simp [valid, bind, Except.bind]

theorem sync_eq_ok_iff {store : Store} {name : String} :
    store.sync name = .ok () ↔ isValidName name = true ∧ name ∈ store.files := by
  have present : name ∈ store.files ↔ ∃ content, store.files[name]? = some content := by
    rw [Std.ExtTreeMap.mem_iff_isSome_getElem?, Option.isSome_iff_exists]
  unfold sync
  cases found : store.content name with
  | error error =>
      constructor
      · intro synced
        simp [bind, Except.bind] at synced
      · intro given
        obtain ⟨valid, member⟩ := given
        obtain ⟨content, there⟩ := present.mp member
        rw [content_eq_ok_iff.mpr ⟨valid, there⟩] at found
        cases found
  | ok content =>
      obtain ⟨valid, there⟩ := content_eq_ok_iff.mp found
      exact ⟨fun _ => ⟨valid, present.mpr ⟨content, there⟩⟩, fun _ => rfl⟩

theorem delete_eq_ok_iff {store after : Store} {name : String} :
    store.delete name = .ok after ↔
      store.isPinned name = false ∧ isValidName name = true ∧
        after = { store with files := store.files.erase name } := by
  unfold delete checkName
  by_cases pinned : store.isPinned name = true
  · simp [pinned, bind, Except.bind, throw, throwThe, MonadExceptOf.throw]
  · by_cases valid : isValidName name = true
    · simp [pinned, valid, bind, Except.bind, pure, Except.pure, eq_comm]
    · simp [pinned, valid, bind, Except.bind]

theorem rename_eq_ok_iff {store after : Store} {source destination : String} :
    store.rename source destination = .ok after ↔
      isValidName source = true ∧ isValidName destination = true ∧
        ∃ content, store.files[source]? = some content ∧
          after = { store with files := (store.files.erase source).insert destination content } := by
  unfold rename checkName
  by_cases validSource : isValidName source = true
  · by_cases valid : isValidName destination = true
    · cases found : store.files[source]? <;>
        simp [validSource, valid, bind, Except.bind, pure, Except.pure, throw, throwThe,
          MonadExceptOf.throw, eq_comm]
    · simp [validSource, valid, bind, Except.bind]
  · simp [validSource, bind, Except.bind]

theorem write_eq_ok_iff {store after : Store} {name : String} {data : Bytes} :
    store.write name data = .ok after ↔ isValidName name = true ∧
      after = { store with files := store.files.insert name (.ofBytes data) } := by
  unfold write checkName
  cases isValidName name <;> simp [bind, Except.bind, pure, Except.pure, eq_comm]

theorem writeAt_eq_ok_iff {store after : Store} {name : String} {position : Nat} {data : Bytes} :
    store.writeAt name position data = .ok after ↔
      ∃ content, store.content name = .ok content ∧
        after = { store with files := store.files.insert name (content.overwrite position data) } := by
  unfold writeAt
  cases store.content name <;>
    simp [bind, Except.bind, pure, Except.pure, eq_comm]

theorem pins_createSized (store : Store) (name : String) (length : Nat) :
    (store.createSized name length).2.pins = store.pins := by
  unfold createSized
  split
  · rfl
  · split <;> rfl

/-- The content of a live file. A temporary file is not live. -/
def live (store : Store) (name : String) : Option Content :=
  if isTemp name then none else store.files[name]?

def octets? (store : Store) (name : String) : Option Bytes :=
  (store.live name).map Content.toBytes

theorem live_of_isTemp {store : Store} {name : String} (temp : isTemp name = true) :
    store.live name = none := by
  simp [live, temp]

theorem live_of_not_isTemp {store : Store} {name : String} (permanent : isTemp name = false) :
    store.live name = store.files[name]? := by
  simp [live, permanent]

theorem files_of_live {store : Store} {name : String} {content : Content}
    (there : store.live name = some content) : store.files[name]? = some content := by
  unfold live at there
  split at there
  · cases there
  · exact there

theorem mem_liveNames_iff {store : Store} {name : String} :
    name ∈ store.liveNames ↔ (store.live name).isSome = true := by
  unfold liveNames live
  rw [List.mem_filter, Std.ExtTreeMap.mem_keys, Std.ExtTreeMap.mem_iff_isSome_getElem?]
  cases temp : isTemp name <;> simp

theorem isTemp_of_isTempOf {recovery : Int64} {name : String}
    (own : isTempOf recovery name = true) : isTemp name = true := by
  unfold isTempOf at own
  unfold isTemp
  rw [List.isPrefixOf_iff_prefix] at own ⊢
  refine List.IsPrefix.trans ?_ own
  simp [tempMarkOf, String.toList_append]

theorem isTempOf_tempName (recovery : Int64) (name : String) :
    isTempOf recovery (tempName recovery name) = true := by
  simp [isTempOf, tempName, List.isPrefixOf_iff_prefix, String.toList_append]

theorem isTemp_tempName (recovery : Int64) (name : String) :
    isTemp (tempName recovery name) = true :=
  isTemp_of_isTempOf (isTempOf_tempName recovery name)

theorem tempName_injective {recovery : Int64} {first second : String}
    (same : tempName recovery first = tempName recovery second) : first = second := by
  unfold tempName at same
  exact String.append_right_inj _ |>.mp same

def isRemovable (store : Store) (name : String) : Bool :=
  !store.isPinned name && isValidName name

theorem delete_of_isRemovable {store : Store} {name : String}
    (removable : store.isRemovable name = true) :
    store.delete name = .ok { store with files := store.files.erase name } := by
  rw [isRemovable, Bool.and_eq_true, Bool.not_eq_true'] at removable
  exact delete_eq_ok_iff.mpr ⟨removable.1, removable.2, rfl⟩

theorem delete_of_not_isRemovable {store : Store} {name : String}
    (kept : store.isRemovable name = false) : ∃ error, store.delete name = .error error := by
  cases deleted : store.delete name with
  | error error => exact ⟨error, rfl⟩
  | ok after =>
      obtain ⟨pinned, valid, _⟩ := delete_eq_ok_iff.mp deleted
      simp [isRemovable, pinned, valid] at kept

/-- Deleting files in order stops at the first that cannot be deleted. -/
theorem files_deleteAll (store : Store) (names : List String) (name : String) :
    (store.deleteAll names).2.files[name]? =
      if name ∈ names.takeWhile store.isRemovable then none else store.files[name]? := by
  induction names generalizing store with
  | nil => simp [deleteAll]
  | cons first names ih =>
      cases removable : store.isRemovable first with
      | false =>
          obtain ⟨error, deleted⟩ := delete_of_not_isRemovable removable
          simp [deleteAll, deleted, removable]
      | true =>
          have same : isRemovable { store with files := store.files.erase first } =
              store.isRemovable := rfl
          simp only [deleteAll, delete_of_isRemovable removable, ih, same,
            List.takeWhile_cons_of_pos removable, List.mem_cons, Std.ExtTreeMap.getElem?_erase]
          by_cases here : name = first
          · simp [here]
          · have other : compare first name ≠ .eq := fun same =>
              here (Std.LawfulEqOrd.eq_of_compare same).symm
            simp [here, other]

theorem deleteAll_eq_ok_iff (store : Store) (names : List String) :
    (store.deleteAll names).1 = .ok () ↔ ∀ name ∈ names, store.isRemovable name = true := by
  induction names generalizing store with
  | nil => simp [deleteAll]
  | cons name names ih =>
      cases removable : store.isRemovable name with
      | false =>
          obtain ⟨error, deleted⟩ := delete_of_not_isRemovable removable
          simp [deleteAll, deleted, removable]
      | true =>
          have same : isRemovable { store with files := store.files.erase name } =
              store.isRemovable := rfl
          simp [deleteAll, delete_of_isRemovable removable, ih, same, removable]

theorem live_deleteAll (store : Store) (names : List String) (name : String) :
    (store.deleteAll names).2.live name =
      if name ∈ names.takeWhile store.isRemovable then none else store.live name := by
  unfold live
  rw [files_deleteAll]
  split <;> split <;> rfl

/-- Cleaning up after a recovery leaves the live files alone. -/
theorem live_removeTemps (store : Store) (recovery : Int64) (name : String) :
    (store.removeTemps recovery).2.live name = store.live name := by
  unfold removeTemps
  dsimp only
  rw [live_deleteAll]
  split
  · next gone =>
      have member := List.mem_filter.mp ((List.takeWhile_prefix _).subset gone)
      rw [live_of_isTemp (isTemp_of_isTempOf member.2)]
  · rfl

end ShardSync.Store
