import ShardSync.Proofs.Store.Files

/-!
# Promoting files

Stored files are made live in three rounds: all of them are synced, then they
are renamed one after the other, and then the live files that are not to be
kept are removed one after the other. Each round may stop at any file. The
main statements say what is live then.
-/

set_option autoImplicit false

namespace ShardSync.Store

/-- Gives files their live names, up to the first that cannot have its name.
The live name of a file comes first, and the name it is stored under second. -/
def renameAll (store : Store) : List (String × String) → Except StoreError Unit × Store
  | [] => (.ok (), store)
  | file :: files =>
      match store.rename file.2 file.1 with
      | .ok store => store.renameAll files
      | .error error => (.error error, store)

/-- Makes stored files live and removes the live files that are not to be
kept. The result are the removed names. -/
def promote (store : Store) (files : List (String × String)) (keep : List String) :
    Except StoreError (List String) × Store :=
  match files.forM fun file => store.sync file.2 with
  | .error error => (.error error, store)
  | .ok () =>
      match store.renameAll files with
      | (.error error, store) => (.error error, store)
      | (.ok (), store) => store.removeStale keep

/-- Files with live names of their own, each stored under a temporary name of
its own. -/
structure Staging (files : List (String × String)) : Prop where
  names : (files.map (·.1)).Nodup
  stored : (files.map (·.2)).Nodup
  permanent : ∀ file ∈ files, isTemp file.1 = false
  temporary : ∀ file ∈ files, isTemp file.2 = true

theorem Staging.tail {file : String × String} {files : List (String × String)}
    (staging : Staging (file :: files)) : Staging files where
  names := (List.nodup_cons.mp staging.names).2
  stored := (List.nodup_cons.mp staging.stored).2
  permanent := fun later member => staging.permanent later (List.mem_cons_of_mem _ member)
  temporary := fun later member => staging.temporary later (List.mem_cons_of_mem _ member)

def isStored (store : Store) (name : String) : Bool :=
  isValidName name && store.files.contains name

theorem sync_eq_ok_iff_isStored {store : Store} {name : String} :
    store.sync name = .ok () ↔ store.isStored name = true := by
  rw [sync_eq_ok_iff, isStored, Bool.and_eq_true, Std.ExtTreeMap.contains_iff_mem]

theorem forM_sync_eq_ok_iff {store : Store} {files : List (String × String)} :
    (files.forM fun file => store.sync file.2) = .ok () ↔
      ∀ file ∈ files, store.isStored file.2 = true := by
  induction files with
  | nil => simp [pure, Except.pure]
  | cons file files ih =>
      rw [List.forM_eq_forM, List.forM_cons, List.forall_mem_cons, ← ih,
        ← sync_eq_ok_iff_isStored]
      cases store.sync file.2 <;> simp [bind, Except.bind]

/-- Renaming a stored file makes its content live under its live name. All
other stored files stay as they are. -/
theorem rename_staged {store after : Store} {name stored : String}
    (permanent : isTemp name = false) (temporary : isTemp stored = true)
    (renamed : store.rename stored name = .ok after) :
    (∀ other, after.live other = if other = name then store.files[stored]? else store.live other) ∧
      (∀ other, isTemp other = true → other ≠ stored → after.files[other]? = store.files[other]?) ∧
      after.pins = store.pins := by
  obtain ⟨_, _, content, found, same⟩ := rename_eq_ok_iff.mp renamed
  have apart {first second : String} (differ : first ≠ second) : compare first second ≠ .eq :=
    fun equal => differ (Std.LawfulEqOrd.eq_of_compare equal)
  refine ⟨fun other => ?_, fun other temp differ => ?_, by rw [same]⟩
  · by_cases here : other = name
    · rw [here, live_of_not_isTemp permanent, same, if_pos rfl, found,
        Std.ExtTreeMap.getElem?_insert_self]
    · rw [if_neg here]
      unfold live
      split
      · rfl
      · next other_permanent =>
          have otherStored : other ≠ stored := fun equal => by
            rw [equal, temporary] at other_permanent
            exact other_permanent rfl
          rw [same, Std.ExtTreeMap.getElem?_insert, if_neg (apart (Ne.symm here)),
            Std.ExtTreeMap.getElem?_erase, if_neg (apart (Ne.symm otherStored))]
  · have elsewhere : name ≠ other := fun equal => by
      rw [equal, temp] at permanent
      cases permanent
    rw [same, Std.ExtTreeMap.getElem?_insert, if_neg (apart elsewhere),
      Std.ExtTreeMap.getElem?_erase, if_neg (apart (Ne.symm differ))]

/-- The files that are renamed before the first that cannot have its name. -/
def promotable (files : List (String × String)) : List (String × String) :=
  files.takeWhile fun file => isValidName file.1

theorem lookup_mem {files : List (String × String)} {name stored : String}
    (found : files.lookup name = some stored) : (name, stored) ∈ files := by
  induction files with
  | nil => cases found
  | cons file files ih =>
      rw [List.lookup_cons] at found
      split at found
      · next same =>
          rw [Option.some.injEq] at found
          rw [← found, beq_iff_eq.mp same]
          exact List.mem_cons_self
      · exact List.mem_cons_of_mem _ (ih found)

theorem lookup_of_mem {files : List (String × String)} {file : String × String}
    (distinct : (files.map (·.1)).Nodup) (member : file ∈ files) :
    files.lookup file.1 = some file.2 := by
  induction files with
  | nil => cases member
  | cons first files ih =>
      rw [List.map_cons, List.nodup_cons] at distinct
      rcases List.mem_cons.mp member with rfl | later
      · rw [List.lookup_cons, beq_self_eq_true]
      · have differ : (file.1 == first.1) = false := beq_eq_false_iff_ne.mpr fun same =>
          distinct.1 (same ▸ List.mem_map_of_mem later)
        rw [List.lookup_cons, differ]
        exact ih distinct.2 later

/-- Renaming files in order: it goes on as long as the live names are
admissible, and what has been renamed then is live. -/
theorem renameAll_staged {store : Store} {files : List (String × String)}
    (staging : Staging files) (stored : ∀ file ∈ files, store.isStored file.2 = true) :
    ((store.renameAll files).1 = .ok () ↔ ∀ file ∈ files, isValidName file.1 = true) ∧
      (∀ name, (store.renameAll files).2.live name =
        match (promotable files).lookup name with
        | some stored => store.files[stored]?
        | none => store.live name) ∧
      (store.renameAll files).2.pins = store.pins := by
  induction files generalizing store with
  | nil => exact ⟨by simp [renameAll], fun name => rfl, rfl⟩
  | cons file files ih =>
      have here := stored file List.mem_cons_self
      rw [isStored, Bool.and_eq_true, Std.ExtTreeMap.contains_iff_mem,
        Std.ExtTreeMap.mem_iff_isSome_getElem?, Option.isSome_iff_exists] at here
      obtain ⟨validStored, content, found⟩ := here
      cases valid : isValidName file.1 with
      | false =>
          have stopped : store.rename file.2 file.1 = .error (.invalidName file.1) := by
            simp [rename, checkName, validStored, valid, bind, Except.bind]
          simp [renameAll, stopped, promotable, valid]
      | true =>
          obtain ⟨after, renamed⟩ : ∃ after, store.rename file.2 file.1 = .ok after :=
            ⟨_, rename_eq_ok_iff.mpr ⟨validStored, valid, content, found, rfl⟩⟩
          obtain ⟨live, others, pins⟩ := rename_staged (staging.permanent file List.mem_cons_self)
            (staging.temporary file List.mem_cons_self) renamed
          have kept : ∀ later ∈ files, after.files[later.2]? = store.files[later.2]? := by
            intro later member
            refine others later.2 (staging.tail.temporary later member) fun same => ?_
            exact (List.nodup_cons.mp staging.stored).1
              (List.mem_map.mpr ⟨later, member, same⟩)
          have storedLater : ∀ later ∈ files, after.isStored later.2 = true := by
            intro later member
            have before := stored later (List.mem_cons_of_mem _ member)
            rw [isStored, Bool.and_eq_true, Std.ExtTreeMap.contains_eq_isSome_getElem?] at before ⊢
            rw [kept later member]
            exact before
          obtain ⟨ended, liveLater, pinsLater⟩ := ih staging.tail storedLater
          simp only [renameAll, renamed]
          refine ⟨by simp [ended, valid], fun name => ?_, pinsLater.trans pins⟩
          rw [liveLater]
          have going : promotable (file :: files) = file :: promotable files := by
            simp [promotable, valid]
          rw [going, List.lookup_cons]
          cases later : (promotable files).lookup name with
          | some other =>
              have member := (List.takeWhile_prefix _).subset (lookup_mem later)
              have differ : (name == file.1) = false := by
                refine beq_eq_false_iff_ne.mpr fun same => ?_
                exact (List.nodup_cons.mp staging.names).1
                  (List.mem_map.mpr ⟨(name, other), member, same⟩)
              rw [differ]
              exact kept (name, other) member
          | none =>
              cases same : name == file.1 with
              | true =>
                  rw [live, if_pos (beq_iff_eq.mp same)]
              | false =>
                  rw [live, if_neg (beq_eq_false_iff_ne.mp same)]

/-- Names in increasing order are determined by which names they are. -/
theorem eq_of_ordered {first second : List String}
    (ordered : first.Pairwise fun name later => compare name later = .lt)
    (also : second.Pairwise fun name later => compare name later = .lt)
    (same : ∀ name, name ∈ first ↔ name ∈ second) : first = second := by
  have nodup {names : List String}
      (ordered : names.Pairwise fun name later => compare name later = .lt) : names.Nodup := by
    refine ordered.imp fun less equal => ?_
    rw [Std.LawfulEqOrd.compare_eq_iff_eq.mpr equal] at less
    cases less
  refine List.Perm.eq_of_pairwise ?_ ordered also
    ((List.perm_ext_iff_of_nodup (nodup ordered) (nodup also)).mpr same)
  intro name later _ _ less greater
  rw [Std.OrientedOrd.eq_swap, less] at greater
  cases greater

theorem stale_congr {first second : Store} {keep : List String}
    (same : ∀ name, name ∈ first.stale keep ↔ name ∈ second.stale keep) :
    first.stale keep = second.stale keep := by
  have ordered (store : Store) :
      (store.stale keep).Pairwise fun name later => compare name later = .lt :=
    (store.files.ordered_keys.filter _).filter _
  exact eq_of_ordered (ordered first) (ordered second) same

/-- Promoting files fails at once if one of them cannot be synced. -/
theorem promote_of_not_stored {store : Store} {files : List (String × String)}
    {keep : List String} (lacking : ¬ ∀ file ∈ files, store.isStored file.2 = true) :
    ∃ error, store.promote files keep = (.error error, store) := by
  unfold promote
  cases synced : files.forM fun file => store.sync file.2 with
  | error error => exact ⟨error, rfl⟩
  | ok done => exact absurd (forM_sync_eq_ok_iff.mp synced) lacking

/-- The stale files that are removed: none if the renaming has stopped, and
else those before the first that cannot be removed. -/
def discarded (store : Store) (files : List (String × String)) (keep : List String) :
    List String :=
  if files.all fun file => isValidName file.1 then
    (store.stale keep).takeWhile store.isRemovable
  else []

theorem mem_stale_iff {store : Store} {keep : List String} {name : String} :
    name ∈ store.stale keep ↔ (store.live name).isSome = true ∧ name ∉ keep := by
  rw [stale, List.mem_filter, mem_liveNames_iff, Bool.not_eq_true', List.contains_eq_mem,
    decide_eq_false_iff_not]

/-- What is live after stored files have been promoted, as far as that went,
and when it went to the end. -/
theorem promote_staged {store : Store} {files : List (String × String)} {keep : List String}
    (staging : Staging files) (stored : ∀ file ∈ files, store.isStored file.2 = true)
    (kept : ∀ file ∈ files, file.1 ∈ keep) :
    ((∃ removed, (store.promote files keep).1 = .ok removed) ↔
      (∀ file ∈ files, isValidName file.1 = true) ∧
        ∀ name ∈ store.stale keep, store.isRemovable name = true) ∧
      ∀ name, (store.promote files keep).2.live name =
        if name ∈ store.discarded files keep then none
        else
          match (promotable files).lookup name with
          | some stored => store.files[stored]?
          | none => store.live name := by
  obtain ⟨ended, live, pins⟩ := renameAll_staged staging stored
  simp only [promote, forM_sync_eq_ok_iff.mpr stored]
  cases renamed : store.renameAll files with
  | mk outcome after =>
      rw [renamed] at ended live pins
      cases outcome with
      | error error =>
          have invalid : ¬ ∀ file ∈ files, isValidName file.1 = true := fun valid => by
            cases ended.mpr valid
          have stopped : store.discarded files keep = [] := by
            rw [discarded, if_neg (by rwa [List.all_eq_true])]
          refine ⟨⟨fun ⟨_, succeeded⟩ => (by cases succeeded), fun possible => ?_⟩, fun name => ?_⟩
          · exact absurd possible.1 invalid
          · rw [live, stopped, if_neg List.not_mem_nil]
      | ok done =>
          have valid := ended.mp rfl
          have removable : after.isRemovable = store.isRemovable := by
            funext name
            simp only [isRemovable, isPinned, show after.pins = store.pins from pins]
          have sameStale : after.stale keep = store.stale keep := by
            refine stale_congr fun name => ?_
            rw [mem_stale_iff, mem_stale_iff, and_congr_left_iff]
            intro outside
            have notReceived : (promotable files).lookup name = none := by
              rw [List.lookup_eq_none_iff]
              intro file member
              refine bne_iff_ne.mpr fun same => outside ?_
              rw [same]
              exact kept file ((List.takeWhile_prefix _).subset member)
            rw [live, notReceived]
          constructor
          · have deleted := deleteAll_eq_ok_iff after (after.stale keep)
            rw [sameStale, removable] at deleted
            rw [and_iff_right valid, ← deleted]
            simp only [removeStale, sameStale]
            cases (after.deleteAll (store.stale keep)).1 <;> simp [Except.map]
          · intro name
            have going : store.discarded files keep =
                (store.stale keep).takeWhile store.isRemovable := by
              rw [discarded, if_pos (List.all_eq_true.mpr valid)]
            simp only [removeStale]
            rw [live_deleteAll, sameStale, removable, going, live]

end ShardSync.Store
