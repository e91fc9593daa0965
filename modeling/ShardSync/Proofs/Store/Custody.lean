import Mathlib.Data.List.Dedup
import ShardSync.Proofs.Store.Pins

/-!
# Snapshots in custody

Snapshots of a store are taken and released in any order while its files change. At all
times a name has as many pins as there are snapshots that list it and have not been
released, and it can be deleted if and only if there are none.
-/

set_option autoImplicit false

namespace ShardSync

def Snapshot.names (snapshot : Snapshot) : List String := snapshot.files.map FileMetadata.name

def Snapshot.lists (snapshot : Snapshot) (name : String) : Bool := snapshot.names.contains name

namespace Store

/-- What can be done to the files of a store. -/
inductive Change where
  | write (name : String) (content : Bytes)
  | createSized (name : String) (length : Nat)
  | writeAt (name : String) (position : Nat) (data : Bytes)
  | rename (source destination : String)
  | delete (name : String)
  | removeStale (keep : List String)
  | removeTemps (recovery : Int64)

/-- What is left of a store after a change, which may have failed or stopped on its way. -/
def changed (store : Store) : Change → Store
  | .write name content => (store.write name content).toOption.getD store
  | .createSized name length => (store.createSized name length).2
  | .writeAt name position data => (store.writeAt name position data).toOption.getD store
  | .rename source destination => (store.rename source destination).toOption.getD store
  | .delete name => (store.delete name).toOption.getD store
  | .removeStale keep => (store.removeStale keep).2
  | .removeTemps recovery => (store.removeTemps recovery).2

inductive Call where
  | change (change : Change)
  | takeSnapshot
  /-- Releases the snapshot that was the one with this index to be taken. -/
  | release (index : Nat)

/-- A store, and the snapshots that have been taken of it, in this order. Those that have
been released are gone. All handles of a store share its files and its pins, so it does not
matter through which of them a call is made. -/
structure Custody where
  store : Store
  taken : List (Option Snapshot) := []

namespace Custody

/-- A store that has just been opened, with the files that are there. -/
def ofFiles (files : Std.ExtTreeMap String Content) : Custody := { store := { files } }

/-- The snapshots that have not been released. -/
def live (custody : Custody) : List Snapshot := custody.taken.filterMap id

def next (custody : Custody) : Call → Custody
  | .change change => { custody with store := custody.store.changed change }
  | .takeSnapshot =>
      match custody.store.takeSnapshot with
      | .ok (snapshot, store) => { store, taken := custody.taken ++ [some snapshot] }
      | .error _ => custody
  | .release index =>
      match custody.taken[index]? with
      | some (some snapshot) =>
          { store := custody.store.release snapshot, taken := custody.taken.set index none }
      | _ => custody

def run (custody : Custody) (calls : List Call) : Custody := calls.foldl next custody

/-- Pins are counted exactly. -/
structure IsExact (custody : Custody) : Prop where
  counted : ∀ name, held custody.store.pins name = custody.live.countP (·.lists name)
  positive : ∀ (name : String) (count : Nat),
    custody.store.pins[name]? = some count → 0 < count
  pinnedCount_eq :
    custody.store.pinnedCount = (custody.live.flatMap Snapshot.names).dedup.length
  refuses_iff : ∀ name, custody.store.delete name = .error (.pinned name) ↔
    ∃ snapshot ∈ custody.live, snapshot.lists name = true
  unchanged : ∀ (name : String) (error : StoreError),
    custody.store.delete name = .error error → custody.next (.change (.delete name)) = custody
  released : custody.live = [] → custody.store.pins = ∅

/-- What the calls keep: the table of pins counts the names of the live snapshots, each of
which lists a name once at most. -/
structure Tallies (custody : Custody) : Prop where
  table : IsCounted custody.store.pins
  counted : ∀ name, held custody.store.pins name = custody.live.countP (·.lists name)
  distinct : ∀ snapshot ∈ custody.live, snapshot.names.Nodup

end Custody

variable {store after : Store} {name : String}

/-- No change to the files touches the pins. -/
theorem pins_changed (store : Store) (change : Change) :
    (store.changed change).pins = store.pins := by
  have kept {outcome : Except StoreError Store}
      (same : ∀ after, outcome = .ok after → after.pins = store.pins) :
      (outcome.toOption.getD store).pins = store.pins := by
    cases done : outcome with
    | error error => rfl
    | ok after => exact same after done
  cases change with
  | write name content =>
      apply kept
      intro after written
      obtain ⟨_, rfl⟩ := write_eq_ok_iff.mp written
      rfl
  | createSized name length => exact pins_createSized store name length
  | writeAt name position data =>
      apply kept
      intro after written
      obtain ⟨_, _, rfl⟩ := writeAt_eq_ok_iff.mp written
      rfl
  | rename source destination =>
      apply kept
      intro after renamed
      obtain ⟨_, _, _, _, rfl⟩ := rename_eq_ok_iff.mp renamed
      rfl
  | delete name =>
      apply kept
      intro after deleted
      obtain ⟨_, _, rfl⟩ := delete_eq_ok_iff.mp deleted
      rfl
  | removeStale keep =>
      have changes : Changes (fun _ => True) store (store.removeStale keep).2 :=
        changes_deleteAll fun _ _ => trivial
      exact changes.pins
  | removeTemps recovery => exact (changes_removeTemps store recovery).pins

theorem delete_eq_pinned_iff :
    store.delete name = .error (.pinned name) ↔ store.isPinned name = true := by
  cases pinned : store.isPinned name with
  | true => simp [delete, pinned, bind, Except.bind, throw, throwThe, MonadExceptOf.throw]
  | false =>
      cases valid : isValidName name <;>
        simp [delete, checkName, pinned, valid, bind, Except.bind, pure, Except.pure]

theorem names_of_taken {snapshot : Snapshot} (taken : store.takeSnapshot = .ok (snapshot, after)) :
    snapshot.names.Nodup ∧
      after = { store with pins := snapshot.names.foldl pin store.pins } := by
  obtain ⟨listed, same⟩ := takeSnapshot_eq_ok_iff.mp taken
  exact ⟨(liveFiles_eq_ok_iff.mp listed).nodup, same⟩

namespace Custody

theorem count_names {snapshot : Snapshot} (distinct : snapshot.names.Nodup) (name : String) :
    snapshot.names.count name = if snapshot.lists name then 1 else 0 := by
  by_cases listed : name ∈ snapshot.names
  · simp [Snapshot.lists, listed, List.count_eq_one_of_mem distinct listed]
  · simp [Snapshot.lists, listed, List.count_eq_zero_of_not_mem listed]

theorem countP_live (custody : Custody) (property : Snapshot → Bool) :
    custody.live.countP property = custody.taken.countP (·.any property) := by
  rw [live, List.countP_filterMap]
  congr 1
  funext snapshot?
  cases snapshot? <;> rfl

namespace Tallies

variable {custody : Custody}

theorem isPinned_iff (tallies : custody.Tallies) :
    custody.store.isPinned name = true ↔ ∃ snapshot ∈ custody.live, snapshot.lists name = true := by
  rw [← List.countP_pos_iff, ← tallies.counted, isPinned,
    Std.ExtTreeMap.contains_eq_isSome_getElem?, tallies.table.getElem?]
  by_cases none : held custody.store.pins name = 0
  · simp [none]
  · simp [none, Nat.pos_of_ne_zero none]

theorem ofFiles (files : Std.ExtTreeMap String Content) : (ofFiles files).Tallies where
  table := isCounted_empty
  counted name := by simp [Custody.ofFiles, live, held]
  distinct snapshot member := by simp [Custody.ofFiles, live] at member

theorem change (tallies : custody.Tallies) (change : Change) :
    (custody.next (.change change)).Tallies := by
  have pins : (custody.next (.change change)).store.pins = custody.store.pins :=
    pins_changed custody.store change
  constructor
  · rw [pins]
    exact tallies.table
  · rw [pins]
    exact tallies.counted
  · exact tallies.distinct

theorem takeSnapshot (tallies : custody.Tallies) : (custody.next .takeSnapshot).Tallies := by
  cases taken : custody.store.takeSnapshot with
  | error error => simpa [next, taken] using tallies
  | ok result =>
      obtain ⟨snapshot, after⟩ := result
      obtain ⟨distinct, rfl⟩ := names_of_taken taken
      simp only [next, taken]
      constructor
      case table => exact tallies.table.foldl_pin snapshot.names
      case counted =>
        intro name
        have before := tallies.counted name
        simp only [live] at before
        simp [live, held_foldl_pin, count_names distinct, before, List.countP_append,
          List.countP_cons]
      case distinct =>
        intro other member
        simp only [live, List.filterMap_append, List.mem_append] at member
        rcases member with before | new
        · exact tallies.distinct other before
        · simp only [List.filterMap_cons, id_eq, List.filterMap_nil, List.mem_singleton] at new
          rwa [new]

theorem release (tallies : custody.Tallies) (index : Nat) :
    (custody.next (.release index)).Tallies := by
  cases found : custody.taken[index]? with
  | none => simpa [next, found] using tallies
  | some snapshot? =>
      cases snapshot? with
      | none => simpa [next, found] using tallies
      | some snapshot =>
          simp only [next, found]
          have kept (other : Snapshot) (member : other ∈ (custody.taken.set index none).filterMap id) :
              other ∈ custody.live := by
            obtain ⟨other?, listed, same⟩ := List.mem_filterMap.mp member
            rcases List.mem_or_eq_of_mem_set listed with before | gone
            · exact List.mem_filterMap.mpr ⟨other?, before, same⟩
            · simp [gone] at same
          have member : snapshot ∈ custody.live :=
            List.mem_filterMap.mpr ⟨some snapshot, List.mem_of_getElem? found, rfl⟩
          constructor
          case table => exact tallies.table.foldl_unpin snapshot.names
          case counted =>
            intro name
            obtain ⟨inside, same⟩ := List.getElem?_eq_some_iff.mp found
            rw [countP_live, List.countP_set inside, same, ← countP_live, ← tallies.counted]
            change held (snapshot.names.foldl unpin custody.store.pins) name = _
            rw [held_foldl_unpin, count_names (tallies.distinct snapshot member)]
            rfl
          case distinct => exact fun other listed => tallies.distinct other (kept other listed)

theorem next (tallies : custody.Tallies) (call : Call) : (custody.next call).Tallies := by
  cases call with
  | change change => exact tallies.change change
  | takeSnapshot => exact tallies.takeSnapshot
  | release index => exact tallies.release index

theorem run (tallies : custody.Tallies) (calls : List Call) : (custody.run calls).Tallies := by
  induction calls generalizing custody with
  | nil => exact tallies
  | cons call calls ih => exact ih (tallies.next call)

theorem pinnedCount_eq (tallies : custody.Tallies) :
    custody.store.pinnedCount = (custody.live.flatMap Snapshot.names).dedup.length := by
  have same (name : String) : name ∈ custody.store.pins.keys ↔
      name ∈ (custody.live.flatMap Snapshot.names).dedup := by
    rw [Std.ExtTreeMap.mem_keys, ← Std.ExtTreeMap.contains_iff_mem, ← isPinned,
      tallies.isPinned_iff]
    simp [Snapshot.lists]
  have perm : custody.store.pins.keys.Perm (custody.live.flatMap Snapshot.names).dedup :=
    (List.perm_ext_iff_of_nodup custody.store.pins.nodup_keys (List.nodup_dedup _)).mpr same
  rw [pinnedCount, ← Std.ExtTreeMap.length_keys, perm.length_eq]

theorem released (tallies : custody.Tallies) (none : custody.live = []) :
    custody.store.pins = ∅ := by
  apply tallies.table.ext isCounted_empty
  intro name
  rw [tallies.counted, none]
  simp [held]

theorem isExact (tallies : custody.Tallies) : custody.IsExact where
  counted := tallies.counted
  positive := tallies.table
  pinnedCount_eq := tallies.pinnedCount_eq
  refuses_iff name := delete_eq_pinned_iff.trans tallies.isPinned_iff
  unchanged name error refused := by simp [Custody.next, changed, refused, Except.toOption]
  released := tallies.released

end Tallies

/-- Whatever snapshots are taken of a store and released again, in whatever order, and whatever
is done to its files meanwhile: its pins are counted exactly. -/
theorem isExact_run (files : Std.ExtTreeMap String Content) (calls : List Call) :
    ((ofFiles files).run calls).IsExact :=
  ((Tallies.ofFiles files).run calls).isExact

end Custody

end Store

end ShardSync
