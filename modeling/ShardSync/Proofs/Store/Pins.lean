import Mathlib.Data.List.Count
import ShardSync.Proofs.Store.Listing

/-!
# Pinned names

Snapshots are counted by name, and a name that no snapshot holds has no count. So a table
of pins says no more than how many snapshots hold each name, and a snapshot that is
released leaves what there was before it, whatever others have pinned since.
-/

set_option autoImplicit false

namespace ShardSync.Store

variable {pins others : Std.ExtTreeMap String Nat} {name : String}

/-- How many snapshots hold a name. -/
def held (pins : Std.ExtTreeMap String Nat) (name : String) : Nat := pins.getD name 0

/-- A table without a name that no snapshot holds. -/
def IsCounted (pins : Std.ExtTreeMap String Nat) : Prop :=
  ∀ (name : String) (count : Nat), pins[name]? = some count → 0 < count

theorem isCounted_empty : IsCounted ∅ := by
  intro name count found
  simp at found

theorem held_eq (pins : Std.ExtTreeMap String Nat) (name : String) :
    held pins name = pins[name]?.getD 0 := Std.ExtTreeMap.getD_eq_getD_getElem?

theorem IsCounted.getElem? (counted : IsCounted pins) (name : String) :
    pins[name]? = if held pins name = 0 then none else some (held pins name) := by
  rw [held_eq]
  cases found : pins[name]? with
  | none => rfl
  | some count => simp [Nat.ne_of_gt (counted name count found)]

/-- What is held determines the table. -/
theorem IsCounted.ext (counted : IsCounted pins) (countedOther : IsCounted others)
    (same : ∀ name, held pins name = held others name) : pins = others := by
  refine Std.ExtTreeMap.ext_getElem? fun name => ?_
  rw [counted.getElem?, countedOther.getElem?, same]

theorem held_insert (pins : Std.ExtTreeMap String Nat) (name other : String) (count : Nat) :
    held (pins.insert name count) other = if name = other then count else held pins other := by
  simp only [held_eq, Std.ExtTreeMap.getElem?_insert, Std.LawfulEqCmp.compare_eq_iff_eq]
  split <;> rfl

theorem held_erase (pins : Std.ExtTreeMap String Nat) (name other : String) :
    held (pins.erase name) other = if name = other then 0 else held pins other := by
  simp only [held_eq, Std.ExtTreeMap.getElem?_erase, Std.LawfulEqCmp.compare_eq_iff_eq]
  split <;> rfl

@[simp] theorem held_pin (pins : Std.ExtTreeMap String Nat) (name other : String) :
    held (pin pins name) other = held pins other + if name = other then 1 else 0 := by
  rw [pin, held_insert]
  split
  · next same => rw [same, held]
  · rfl

@[simp] theorem held_unpin (pins : Std.ExtTreeMap String Nat) (name other : String) :
    held (unpin pins name) other = held pins other - if name = other then 1 else 0 := by
  unfold unpin
  split
  · next count found =>
      rw [held_insert]
      split
      · next same => simp [← same, held_eq, found]
      · rfl
  · next count few found =>
      rw [held_erase]
      split
      · next same =>
          have small : count ≤ 1 := by
            rcases count with _ | _ | count
            · omega
            · omega
            · exact absurd rfl (few count)
          simp [← same, held_eq, found]
          omega
      · rfl
  · next missing =>
      split
      · next same => simp [← same, held_eq, missing]
      · rfl

theorem IsCounted.pin (counted : IsCounted pins) (name : String) : IsCounted (pin pins name) := by
  intro other count found
  rw [Store.pin, Std.ExtTreeMap.getElem?_insert] at found
  split at found
  · cases found
    exact Nat.succ_pos _
  · exact counted other count found

theorem IsCounted.unpin (counted : IsCounted pins) (name : String) :
    IsCounted (unpin pins name) := by
  intro other count found
  unfold Store.unpin at found
  split at found
  · rw [Std.ExtTreeMap.getElem?_insert] at found
    split at found
    · cases found
      exact Nat.succ_pos _
    · exact counted other count found
  · rw [Std.ExtTreeMap.getElem?_erase] at found
    split at found
    · cases found
    · exact counted other count found
  · exact counted other count found

theorem held_foldl_pin (names : List String) (pins : Std.ExtTreeMap String Nat) (name : String) :
    held (names.foldl Store.pin pins) name = held pins name + names.count name := by
  induction names generalizing pins with
  | nil => rfl
  | cons first names ih =>
      rw [List.foldl_cons, ih, held_pin, List.count_cons]
      simp only [beq_iff_eq]
      omega

theorem held_foldl_unpin (names : List String) (pins : Std.ExtTreeMap String Nat)
    (name : String) :
    held (names.foldl Store.unpin pins) name = held pins name - names.count name := by
  induction names generalizing pins with
  | nil => rfl
  | cons first names ih =>
      rw [List.foldl_cons, ih, held_unpin, List.count_cons]
      simp only [beq_iff_eq]
      omega

theorem IsCounted.foldl_pin (counted : IsCounted pins) (names : List String) :
    IsCounted (names.foldl Store.pin pins) := by
  induction names generalizing pins with
  | nil => exact counted
  | cons first names ih => exact ih (counted.pin first)

theorem IsCounted.foldl_unpin (counted : IsCounted pins) (names : List String) :
    IsCounted (names.foldl Store.unpin pins) := by
  induction names generalizing pins with
  | nil => exact counted
  | cons first names ih => exact ih (counted.unpin first)

end ShardSync.Store
