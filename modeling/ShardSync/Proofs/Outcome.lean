import Mathlib.Control.Basic
import Mathlib.Data.List.Forall2

/-!
# Outcomes

When something that is made of steps which may fail comes to a value.
-/

set_option autoImplicit false

namespace ShardSync

variable {ε α β : Type}

theorem eq_ok_of_toOption {outcome : Except ε α} {value : α}
    (found : outcome.toOption = some value) : outcome = .ok value := by
  cases outcome with
  | error error => cases found
  | ok value =>
      cases found
      rfl

theorem mapError_eq_ok_iff {ε' : Type} {outcome : Except ε α} {change : ε → ε'} {value : α} :
    outcome.mapError change = .ok value ↔ outcome = .ok value := by
  cases outcome <;> simp [Except.mapError]

theorem bind_eq_ok_iff {outcome : Except ε α} {next : α → Except ε β} {result : β} :
    (outcome >>= next) = .ok result ↔ ∃ value, outcome = .ok value ∧ next value = .ok result := by
  cases outcome <;> simp [bind, Except.bind]

theorem forM_eq_ok_iff {step : α → Except ε Unit} {items : List α} :
    items.forM step = .ok () ↔ ∀ item ∈ items, step item = .ok () := by
  induction items with
  | nil => simp [pure, Except.pure]
  | cons item items ih =>
      rw [List.forM_eq_forM, List.forM_cons, bind_eq_ok_iff, List.forall_mem_cons]
      constructor
      · rintro ⟨_, here, later⟩
        exact ⟨here, ih.mp later⟩
      · rintro ⟨here, later⟩
        exact ⟨(), here, ih.mpr later⟩

theorem mapM_eq_ok_iff {change : α → Except ε β} {items : List α} {results : List β} :
    items.mapM change = .ok results ↔
      List.Forall₂ (fun item result => change item = .ok result) items results := by
  induction items generalizing results with
  | nil => cases results <;> simp [pure, Except.pure]
  | cons item items ih =>
      simp only [List.mapM_cons, bind_eq_ok_iff, ih]
      constructor
      · rintro ⟨result, here, others, later, same⟩
        cases same
        exact .cons here later
      · intro all
        cases all with
        | cons here later => exact ⟨_, here, _, later, rfl⟩

theorem exists_mapM_eq_ok {change : α → Except ε β} {items : List α}
    (each : ∀ item ∈ items, ∃ result, change item = .ok result) :
    ∃ results, items.mapM change = .ok results := by
  induction items with
  | nil => exact ⟨[], rfl⟩
  | cons item items ih =>
      obtain ⟨⟨result, here⟩, later⟩ := List.forall_mem_cons.mp each
      obtain ⟨results, changed⟩ := ih later
      exact ⟨result :: results, by rw [List.mapM_cons, here, changed]; rfl⟩

/-- What comes to the same item by item comes to the same as a whole. -/
theorem mapM_eq_ok_of_forall {change other : α → Except ε β} {items : List α} {results : List β}
    (each : ∀ item ∈ items, ∀ result, change item = .ok result → other item = .ok result)
    (changed : items.mapM change = .ok results) : items.mapM other = .ok results := by
  have all := mapM_eq_ok_iff.mp changed
  clear changed
  refine mapM_eq_ok_iff.mpr ?_
  induction all with
  | nil => exact .nil
  | cons here _ ih =>
      obtain ⟨first, later⟩ := List.forall_mem_cons.mp each
      exact .cons (first _ here) (ih later)

theorem exists_of_mapM {change : α → Except ε β} {items : List α} {results : List β}
    (changed : items.mapM change = .ok results) {item : α} (member : item ∈ items) :
    ∃ result, change item = .ok result := by
  have all := mapM_eq_ok_iff.mp changed
  clear changed
  induction all with
  | nil => cases member
  | cons here _ ih =>
      rcases List.mem_cons.mp member with rfl | later
      · exact ⟨_, here⟩
      · exact ih later

theorem exists_mem_of_mapM {change : α → Except ε β} {items : List α} {results : List β}
    (changed : items.mapM change = .ok results) {result : β} (member : result ∈ results) :
    ∃ item ∈ items, change item = .ok result := by
  have all := mapM_eq_ok_iff.mp changed
  clear changed
  induction all with
  | nil => cases member
  | @cons item _ _ _ here _ ih =>
      rcases List.mem_cons.mp member with rfl | later
      · exact ⟨item, List.mem_cons_self, here⟩
      · obtain ⟨found, listed, same⟩ := ih later
        exact ⟨found, List.mem_cons_of_mem _ listed, same⟩

end ShardSync
