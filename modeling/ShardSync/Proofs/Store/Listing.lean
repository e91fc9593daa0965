import ShardSync.Proofs.Outcome
import ShardSync.Proofs.Store.Temporaries

/-!
# Listings and snapshots

A listing of the live files succeeds if all their names are admissible, and
then it depends on nothing but the live files. A snapshot is such a listing, so
snapshots hold live files only.
-/

set_option autoImplicit false

namespace ShardSync.Store

theorem metadata_eq_ok_iff {store : Store} {name : String} {file : FileMetadata} :
    store.metadata name = .ok file ↔
      isValidName name = true ∧
        ∃ content, store.files[name]? = some content ∧ file = .ofContent name content := by
  unfold metadata
  cases found : store.content name with
  | error error =>
      constructor
      · intro listed
        cases listed
      · rintro ⟨valid, content, there, _⟩
        rw [content_eq_ok_iff.mpr ⟨valid, there⟩] at found
        cases found
  | ok content =>
      obtain ⟨valid, there⟩ := content_eq_ok_iff.mp found
      simp [bind, Except.bind, pure, Except.pure, valid, there, eq_comm]

theorem verify_eq_ok_iff {store : Store} {name : String} {expected : FileMetadata} :
    store.verify name expected = .ok () ↔
      ∃ actual, store.metadata name = .ok actual ∧ actual.length = expected.length ∧
        actual.checksum = expected.checksum := by
  unfold verify
  cases store.metadata name with
  | error error => simp [bind, Except.bind]
  | ok actual =>
      simp only [bind, Except.bind, Except.ok.injEq, exists_eq_left']
      split
      · next same => exact iff_of_true rfl same
      · next differ => exact iff_of_false (fun verified => by cases verified) differ

/-- What a listing of the live files contains. -/
structure Lists (store : Store) (files : List FileMetadata) : Prop where
  names : files.map (·.name) = store.liveNames
  described : ∀ file ∈ files, isValidName file.name = true ∧
    ∃ content, store.live file.name = some content ∧ file = .ofContent file.name content

theorem described_of_metadata {store : Store} {names : List String} {files : List FileMetadata}
    (listed : List.Forall₂ (fun name file => store.metadata name = .ok file) names files)
    (permanent : ∀ name ∈ names, isTemp name = false) :
    files.map (·.name) = names ∧ ∀ file ∈ files, isValidName file.name = true ∧
      ∃ content, store.live file.name = some content ∧
        file = .ofContent file.name content := by
  induction listed with
  | nil => simp
  | cons here _ ih =>
      rw [List.forall_mem_cons] at permanent
      obtain ⟨valid, content, there, rfl⟩ := metadata_eq_ok_iff.mp here
      obtain ⟨names, others⟩ := ih permanent.2
      refine ⟨by simp [FileMetadata.ofContent, names], List.forall_mem_cons.mpr ⟨?_, others⟩⟩
      exact ⟨valid, content, (live_of_not_isTemp permanent.1).trans there, rfl⟩

theorem liveFiles_eq_ok_iff {store : Store} {files : List FileMetadata} :
    store.liveFiles = .ok files ↔ store.Lists files := by
  rw [liveFiles, mapM_eq_ok_iff]
  constructor
  · intro listed
    obtain ⟨names, described⟩ := described_of_metadata listed fun name member => by
      simpa using (List.mem_filter.mp member).2
    exact ⟨names, described⟩
  · rintro ⟨names, described⟩
    rw [← names]
    clear names
    induction files with
    | nil => exact .nil
    | cons file files ih =>
        rw [List.forall_mem_cons] at described
        obtain ⟨⟨valid, content, there, same⟩, others⟩ := described
        exact .cons (metadata_eq_ok_iff.mpr ⟨valid, content, files_of_live there, same⟩) (ih others)

/-- Only an inadmissible name stops a listing. -/
theorem exists_lists {store : Store}
    (valid : ∀ name ∈ store.liveNames, isValidName name = true) :
    ∃ files, store.Lists files := by
  have described (name : String) (member : name ∈ store.liveNames) :
      ∃ file, store.metadata name = .ok file := by
    obtain ⟨content, there⟩ := Option.isSome_iff_exists.mp (mem_liveNames_iff.mp member)
    exact ⟨_, metadata_eq_ok_iff.mpr ⟨valid name member, content, files_of_live there, rfl⟩⟩
  obtain ⟨files, listed⟩ := exists_mapM_eq_ok described
  exact ⟨files, liveFiles_eq_ok_iff.mp listed⟩

theorem Lists.mem_iff {store : Store} {files : List FileMetadata} (lists : store.Lists files)
    {file : FileMetadata} :
    file ∈ files ↔ ∃ content, store.live file.name = some content ∧
      file = .ofContent file.name content := by
  constructor
  · intro member
    exact (lists.described file member).2
  · rintro ⟨content, there, same⟩
    have listed : file.name ∈ files.map (·.name) := by
      rw [lists.names, mem_liveNames_iff, there]
      rfl
    obtain ⟨other, member, equal⟩ := List.mem_map.mp listed
    obtain ⟨_, found, known, described⟩ := lists.described other member
    rw [equal, there] at known
    cases known
    rw [same, ← equal, ← described]
    exact member

theorem Lists.live_eq_none {store : Store} {files : List FileMetadata} (lists : store.Lists files)
    {name : String} (unlisted : ∀ file ∈ files, file.name ≠ name) : store.live name = none := by
  cases there : store.live name with
  | none => rfl
  | some content =>
      have member : FileMetadata.ofContent name content ∈ files :=
        lists.mem_iff.mpr ⟨content, there, rfl⟩
      exact absurd rfl (unlisted _ member)

theorem Lists.nodup {store : Store} {files : List FileMetadata} (lists : store.Lists files) :
    (files.map (·.name)).Nodup := by
  rw [lists.names]
  exact store.files.nodup_keys.filter _

theorem ordered_liveNames (store : Store) :
    store.liveNames.Pairwise fun name later => compare name later = .lt :=
  store.files.ordered_keys.filter _

/-- A listing is one of another store, if that has the same live files. -/
theorem Lists.congr {store other : Store} {files : List FileMetadata} (lists : store.Lists files)
    (same : ∀ name, (other.live name).map (FileMetadata.ofContent name) =
      (store.live name).map (FileMetadata.ofContent name)) : other.Lists files where
  names := by
    rw [lists.names]
    refine eq_of_ordered (ordered_liveNames store) (ordered_liveNames other) fun name => ?_
    have same := same name
    rw [mem_liveNames_iff, mem_liveNames_iff, ← Option.isSome_map, ← same, Option.isSome_map]
  described file member := by
    obtain ⟨valid, content, there, described⟩ := lists.described file member
    have same := same file.name
    rw [there, Option.map_some, Option.map_eq_some_iff] at same
    obtain ⟨found, there, equal⟩ := same
    exact ⟨valid, found, there, described.trans equal.symm⟩

theorem takeSnapshot_eq_ok_iff {store after : Store} {snapshot : Snapshot} :
    store.takeSnapshot = .ok (snapshot, after) ↔
      store.liveFiles = .ok snapshot.files ∧
        after = { store with
          pins := (snapshot.files.map FileMetadata.name).foldl pin store.pins } := by
  unfold takeSnapshot
  cases store.liveFiles with
  | error error => simp [bind, Except.bind]
  | ok files =>
      obtain ⟨snapped⟩ := snapshot
      simp only [bind, Except.bind, pure, Except.pure, Except.ok.injEq, Prod.mk.injEq,
        Snapshot.mk.injEq]
      constructor
      · rintro ⟨rfl, rfl⟩
        exact ⟨rfl, rfl⟩
      · rintro ⟨rfl, rfl⟩
        exact ⟨rfl, rfl⟩

theorem mem_foldl_pin {names : List String} {pins : Std.ExtTreeMap String Nat} {name : String}
    (held : name ∈ names.foldl pin pins) : name ∈ pins ∨ name ∈ names := by
  induction names generalizing pins with
  | nil => exact .inl held
  | cons first names ih =>
      cases ih held with
      | inl before =>
          cases Std.ExtTreeMap.mem_insert.mp before with
          | inl same => exact .inr (Std.LawfulEqOrd.eq_of_compare same ▸ List.mem_cons_self)
          | inr there => exact .inl there
      | inr member => exact .inr (List.mem_cons_of_mem _ member)

theorem mem_foldl_unpin {names : List String} {pins : Std.ExtTreeMap String Nat} {name : String}
    (held : name ∈ names.foldl unpin pins) : name ∈ pins := by
  induction names generalizing pins with
  | nil => exact held
  | cons first names ih =>
      have before := ih held
      unfold unpin at before
      split at before
      · next count found =>
          cases Std.ExtTreeMap.mem_insert.mp before with
          | inl same =>
              rw [← Std.LawfulEqOrd.eq_of_compare same, Std.ExtTreeMap.mem_iff_isSome_getElem?,
                found]
              rfl
          | inr there => exact there
      · exact Std.ExtTreeMap.mem_of_mem_erase before
      · exact before

/-- A snapshot that is taken holds live files only. -/
theorem WellNamed.takeSnapshot {store after : Store} {snapshot : Snapshot}
    (wellNamed : store.WellNamed) (taken : store.takeSnapshot = .ok (snapshot, after)) :
    after.WellNamed := by
  obtain ⟨listed, rfl⟩ := takeSnapshot_eq_ok_iff.mp taken
  refine ⟨wellNamed.valid, fun name temp => ?_⟩
  rw [isPinned, ← Bool.not_eq_true, Std.ExtTreeMap.contains_iff_mem]
  intro held
  cases mem_foldl_pin held with
  | inl before =>
      have free := wellNamed.unheld name temp
      rw [isPinned, Std.ExtTreeMap.contains_iff_mem.mpr before] at free
      cases free
  | inr listing =>
      have names := (liveFiles_eq_ok_iff.mp listed).names
      rw [names, mem_liveNames_iff, live_of_isTemp temp] at listing
      cases listing

theorem WellNamed.release {store : Store} (wellNamed : store.WellNamed) (snapshot : Snapshot) :
    (store.release snapshot).WellNamed := by
  refine ⟨wellNamed.valid, fun name temp => ?_⟩
  rw [isPinned, ← Bool.not_eq_true, Std.ExtTreeMap.contains_iff_mem]
  intro held
  have free := wellNamed.unheld name temp
  rw [isPinned, Std.ExtTreeMap.contains_iff_mem.mpr (mem_foldl_unpin held)] at free
  cases free

end ShardSync.Store
