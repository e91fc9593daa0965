import Mathlib.Data.List.Infix
import ShardSync.Proofs.Store.Custody

/-!
# Files that snapshots list

A snapshot records the length and the checksum of every file that it lists, and pins its
name. Pins keep a file from being deleted. They do not keep it from being written, renamed or
replaced, so a store bears a snapshot out for exactly as long as nothing of that kind happens
to its files.
-/

set_option autoImplicit false

namespace ShardSync.Store

/-- What a change puts in the place of a file, whether it is pinned or not: another content, or
nothing if the file is renamed. -/
inductive Puts (store : Store) : Change → String → Option Content → Prop where
  | wrote {name : String} {data : Bytes} (valid : isValidName name = true) :
      Puts store (.write name data) name (some (.ofBytes data))
  | sized {name : String} {length : Nat} (valid : isValidName name = true)
      (fits : length ≤ maxLength) :
      Puts store (.createSized name length) name (some (.blank length))
  | emptied {name : String} {length : Nat} (valid : isValidName name = true)
      (exceeds : maxLength < length) : Puts store (.createSized name length) name (some {})
  | overwrote {name : String} {position : Nat} {data : Bytes} {content : Content}
      (found : store.content name = .ok content) :
      Puts store (.writeAt name position data) name (some (content.overwrite position data))
  | arrived {source destination : String} {content : Content}
      (found : store.content source = .ok content) (valid : isValidName destination = true) :
      Puts store (.rename source destination) destination (some content)
  | left {source destination : String} {content : Content}
      (found : store.content source = .ok content) (valid : isValidName destination = true)
      (apart : source ≠ destination) : Puts store (.rename source destination) source none

/-- Every file that the snapshot lists is there, as the snapshot describes it. -/
def Bears (store : Store) (snapshot : Snapshot) : Prop :=
  ∀ file ∈ snapshot.files, store.metadata file.name = .ok file

/-- The change puts nothing in the place of a file that the snapshot lists, unless it looks the
same to the snapshot. -/
def Spares (store : Store) (change : Change) (snapshot : Snapshot) : Prop :=
  ∀ file ∈ snapshot.files, ∀ content?, store.Puts change file.name content? →
    content?.map (FileMetadata.ofContent file.name) = some file

variable {store : Store} {change : Change} {name : String} {content? : Option Content}

theorem changed_rename {source destination : String} {content : Content}
    (found : store.content source = .ok content) (valid : isValidName destination = true) :
    store.changed (.rename source destination) =
      { store with files := (store.files.erase source).insert destination content } := by
  obtain ⟨validSource, there⟩ := content_eq_ok_iff.mp found
  have renamed := rename_eq_ok_iff.mpr ⟨validSource, valid, content, there, rfl⟩
  simp [changed, renamed, Except.toOption]

theorem files_of_puts (puts : store.Puts change name content?) :
    (store.changed change).files[name]? = content? := by
  cases puts with
  | @wrote _ data valid =>
      have written : store.write name data = .ok _ := write_eq_ok_iff.mpr ⟨valid, rfl⟩
      simp [changed, written, Except.toOption]
  | sized valid fits => simp [changed, createSized, checkName, valid, fits]
  | emptied valid exceeds =>
      simp [changed, createSized, checkName, valid, Nat.not_le_of_lt exceeds]
  | @overwrote _ position data _ found =>
      have written : store.writeAt name position data = .ok _ :=
        writeAt_eq_ok_iff.mpr ⟨_, found, rfl⟩
      simp [changed, written, Except.toOption]
  | arrived found valid => simp [changed_rename found valid]
  | left found valid apart => simp [changed_rename found valid, apart.symm]

theorem files_deleteAll_of_isPinned (pinned : store.isPinned name = true) (names : List String) :
    (store.deleteAll names).2.files[name]? = store.files[name]? := by
  rw [files_deleteAll, if_neg]
  intro removed
  have removable := List.mem_takeWhile_imp removed
  simp [isRemovable, pinned] at removable

/-- What is put in the place of another file does not show in this one. -/
theorem getElem?_of_untouched (untouched : ∀ content?, ¬ store.Puts change name content?)
    {other : String} {content : Content} (puts : store.Puts change other (some content))
    (files : Std.ExtTreeMap String Content) :
    (files.insert other content)[name]? = files[name]? := by
  have apart : other ≠ name := by
    rintro rfl
    exact untouched _ puts
  simp [Std.ExtTreeMap.getElem?_insert, apart]

/-- A pinned file stays as it is, unless the change puts something in its place. -/
theorem files_of_isPinned (pinned : store.isPinned name = true)
    (untouched : ∀ content?, ¬ store.Puts change name content?) :
    (store.changed change).files[name]? = store.files[name]? := by
  have elsewhere {other : String} {content : Content} :=
    @getElem?_of_untouched _ _ _ untouched other content
  cases change with
  | write other data =>
      cases written : store.write other data with
      | error error => simp [changed, written, Except.toOption]
      | ok after =>
          obtain ⟨valid, rfl⟩ := write_eq_ok_iff.mp written
          simpa [changed, written, Except.toOption] using elsewhere (.wrote valid) _
  | createSized other length =>
      cases valid : isValidName other with
      | false => simp [changed, createSized, checkName, valid]
      | true =>
          by_cases fits : length ≤ maxLength
          · simpa [changed, createSized, checkName, valid, fits]
              using elsewhere (.sized valid fits) _
          · simpa [changed, createSized, checkName, valid, fits]
              using elsewhere (.emptied valid (Nat.lt_of_not_le fits)) _
  | writeAt other position data =>
      cases written : store.writeAt other position data with
      | error error => simp [changed, written, Except.toOption]
      | ok after =>
          obtain ⟨content, found, rfl⟩ := writeAt_eq_ok_iff.mp written
          simpa [changed, written, Except.toOption] using elsewhere (.overwrote found) _
  | rename source destination =>
      cases renamed : store.rename source destination with
      | error error => simp [changed, renamed, Except.toOption]
      | ok after =>
          obtain ⟨validSource, valid, content, there, -⟩ := rename_eq_ok_iff.mp renamed
          have found := content_eq_ok_iff.mpr ⟨validSource, there⟩
          have apart : source ≠ name := by
            rintro rfl
            by_cases here : source = destination
            · subst here
              exact untouched _ (.arrived found valid)
            · exact untouched none (.left found valid here)
          simp only [changed_rename found valid, elsewhere (.arrived found valid)]
          simp [Std.ExtTreeMap.getElem?_erase, apart]
  | delete other =>
      have refused : other = name → store.delete other = .error (.pinned other) := by
        rintro rfl
        exact delete_eq_pinned_iff.mpr pinned
      cases deleted : store.delete other with
      | error error => simp [changed, deleted, Except.toOption]
      | ok after =>
          have apart : other ≠ name := by
            intro same
            simp [refused same] at deleted
          obtain ⟨_, _, rfl⟩ := delete_eq_ok_iff.mp deleted
          simp [changed, deleted, Except.toOption, Std.ExtTreeMap.getElem?_erase, apart]
  | removeStale keep => exact files_deleteAll_of_isPinned pinned _
  | removeTemps recovery => exact files_deleteAll_of_isPinned pinned _

theorem metadata_eq_ok_iff_map {file : FileMetadata} :
    store.metadata name = .ok file ↔ isValidName name = true ∧
      store.files[name]?.map (FileMetadata.ofContent name) = some file := by
  simp only [metadata_eq_ok_iff, Option.map_eq_some_iff, @eq_comm _ file]

/-- A change to a store whose pins hold all names of a snapshot leaves the snapshot borne out
if and only if it spares it. -/
theorem bears_changed_iff {snapshot : Snapshot} (bears : store.Bears snapshot)
    (pinned : ∀ file ∈ snapshot.files, store.isPinned file.name = true) :
    (store.changed change).Bears snapshot ↔ store.Spares change snapshot := by
  constructor
  · intro after file member content? puts
    have same := (metadata_eq_ok_iff_map.mp (after file member)).2
    rwa [files_of_puts puts] at same
  · intro spares file member
    obtain ⟨valid, there⟩ := metadata_eq_ok_iff_map.mp (bears file member)
    apply metadata_eq_ok_iff_map.mpr
    by_cases touched : ∃ content?, store.Puts change file.name content?
    · obtain ⟨content?, puts⟩ := touched
      rw [files_of_puts puts]
      exact ⟨valid, spares file member content? puts⟩
    · rw [files_of_isPinned (pinned file member) (not_exists.mp touched)]
      exact ⟨valid, there⟩

theorem Bears.congr {snapshot : Snapshot} {after : Store} (bears : store.Bears snapshot)
    (same : after.files = store.files) : after.Bears snapshot := by
  intro file member
  obtain ⟨valid, there⟩ := metadata_eq_ok_iff_map.mp (bears file member)
  exact metadata_eq_ok_iff_map.mpr ⟨valid, same ▸ there⟩

theorem files_of_taken {snapshot : Snapshot} {after : Store}
    (taken : store.takeSnapshot = .ok (snapshot, after)) : after.files = store.files := by
  obtain ⟨_, rfl⟩ := takeSnapshot_eq_ok_iff.mp taken
  rfl

theorem bears_of_taken {snapshot : Snapshot} {after : Store}
    (taken : store.takeSnapshot = .ok (snapshot, after)) : after.Bears snapshot := by
  obtain ⟨listed, rfl⟩ := takeSnapshot_eq_ok_iff.mp taken
  intro file member
  obtain ⟨valid, content, there, same⟩ := (liveFiles_eq_ok_iff.mp listed).described file member
  exact metadata_eq_ok_iff.mpr ⟨valid, content, files_of_live there, same⟩

namespace Custody

/-- The snapshot that was the one with this index to be taken has not been released. -/
def Holds (custody : Custody) (index : Nat) (snapshot : Snapshot) : Prop :=
  custody.taken[index]? = some (some snapshot)

variable {custody : Custody} {index : Nat} {snapshot : Snapshot}

theorem Holds.mem_live (holds : custody.Holds index snapshot) : snapshot ∈ custody.live :=
  List.mem_filterMap.mpr ⟨some snapshot, List.mem_of_getElem? holds, rfl⟩

theorem Holds.isPinned (holds : custody.Holds index snapshot) (tallies : custody.Tallies)
    (file : FileMetadata) (member : file ∈ snapshot.files) :
    custody.store.isPinned file.name = true := by
  have lists : snapshot.lists file.name = true := by
    simpa [Snapshot.lists, Snapshot.names] using ⟨file, member, rfl⟩
  exact tallies.isPinned_iff.mpr ⟨snapshot, holds.mem_live, lists⟩

theorem holds_of_release {other : Nat}
    (holds : (custody.next (.release other)).Holds index snapshot) :
    custody.Holds index snapshot := by
  unfold Holds next at *
  cases found : custody.taken[other]? with
  | none => simpa [found] using holds
  | some snapshot? =>
      cases snapshot? with
      | none => simpa [found] using holds
      | some released =>
          simp only [found, List.getElem?_set] at holds
          by_cases same : other = index
          · simp [same] at holds
          · simpa [same] using holds

theorem files_release (other : Nat) :
    (custody.next (.release other)).store.files = custody.store.files := by
  cases found : custody.taken[other]? with
  | none => simp [next, found]
  | some snapshot? => cases snapshot? <;> simp [next, found, release]

/-- A snapshot that has just been taken is borne out, and those before it as they were. -/
theorem bears_of_takeSnapshot
    (before : custody.Holds index snapshot → custody.store.Bears snapshot)
    (holds : (custody.next .takeSnapshot).Holds index snapshot) :
    (custody.next .takeSnapshot).store.Bears snapshot := by
  unfold Holds next at *
  cases taken : custody.store.takeSnapshot with
  | error error =>
      simp only [taken] at holds ⊢
      exact before holds
  | ok result =>
      obtain ⟨added, after⟩ := result
      simp only [taken] at holds ⊢
      rcases Nat.lt_or_ge index custody.taken.length with old | new
      · rw [List.getElem?_append_left old] at holds
        exact (before holds).congr (files_of_taken taken)
      · rw [List.getElem?_append_right new, List.getElem?_singleton] at holds
        split at holds
        · cases holds
          exact bears_of_taken taken
        · cases holds

/-- A snapshot stays true until it is released, whatever is done to the store in the meantime,
if and only if no change puts anything in the place of one of its files. -/
theorem staysTrue_iff (files : Std.ExtTreeMap String Content) (calls : List Call) (index : Nat) :
    (∀ done, done <+: calls → ∀ snapshot, ((ofFiles files).run done).Holds index snapshot →
        ((ofFiles files).run done).store.Bears snapshot) ↔
      ∀ done change, done ++ [.change change] <+: calls → ∀ snapshot,
        ((ofFiles files).run done).Holds index snapshot →
        ((ofFiles files).run done).store.Spares change snapshot := by
  have pinned (done : List Call) {snapshot : Snapshot}
      (holds : ((ofFiles files).run done).Holds index snapshot) :=
    holds.isPinned ((Tallies.ofFiles files).run done)
  have step (done : List Call) (call : Call) :
      (ofFiles files).run (done ++ [call]) = ((ofFiles files).run done).next call := by
    simp [run]
  constructor
  · intro bears done change inside snapshot holds
    have before := bears done ((List.prefix_append done _).trans inside) snapshot holds
    apply (bears_changed_iff before (pinned done holds)).mp
    have after := bears _ inside snapshot
    rw [step] at after
    exact after holds
  · intro spares done
    -- Over what has been done so far, and there by the call that was last.
    induction done using List.reverseRecOn with
    | nil =>
        intro inside snapshot holds
        simp [Holds, run, ofFiles] at holds
    | append_singleton done call ih =>
        intro inside snapshot
        have before := ih ((List.prefix_append done _).trans inside) snapshot
        rw [step]
        intro holds
        cases call with
        | change change =>
            have spared := spares done change inside snapshot holds
            exact (bears_changed_iff (before holds) (pinned done holds)).mpr spared
        | takeSnapshot => exact bears_of_takeSnapshot before holds
        | release other =>
            exact (before (holds_of_release holds)).congr (files_release other)

/-- A file is written over while a snapshot lists it. -/
def overwriting : List Call :=
  [.change (.write "f" [0x31]), .takeSnapshot, .change (.write "f" [0x32])]

theorem not_staysTrue_overwriting :
    ¬ ∀ (files : Std.ExtTreeMap String Content) (calls : List Call) (index : Nat)
      (snapshot : Snapshot), ((ofFiles files).run calls).Holds index snapshot →
        ((ofFiles files).run calls).store.Bears snapshot := by
  intro staysTrue
  have holds : ((ofFiles ∅).run overwriting).Holds 0 ⟨[⟨"f", 1, 2212294583⟩]⟩ := by
    unfold Holds
    decide +kernel
  have bears := staysTrue ∅ overwriting 0 _ holds ⟨"f", 1, 2212294583⟩ List.mem_cons_self
  revert bears
  decide +kernel

end Custody

end ShardSync.Store
