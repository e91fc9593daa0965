import ShardSync.Proofs.Outcome
import ShardSync.Recovery.Target.Basic

/-!
# Running the steps of a target

How the pieces that steps are made of act on a receiver, what a step that
succeeded says about its pieces, and which part of the receiver a step keeps
whether it succeeds or not.
-/

set_option autoImplicit false

namespace ShardSync.Recovery.Receiving

variable {α β : Type}

@[simp] theorem start_pure (value : α) (receiver : Receiver) :
    (pure value : Receiving α).start receiver = (.ok value, receiver) := rfl

@[simp] theorem start_throw (error : Error) (receiver : Receiver) :
    (throw error : Receiving α).start receiver = (.error error, receiver) := rfl

@[simp] theorem start_check (outcome : Except Error α) (receiver : Receiver) :
    (check outcome).start receiver = (outcome, receiver) := rfl

@[simp] theorem start_get (receiver : Receiver) :
    (get : Receiving Receiver).start receiver = (.ok receiver, receiver) := rfl

@[simp] theorem start_modifyTarget (change : Target → Target) (receiver : Receiver) :
    (modifyTarget change).start receiver =
      (.ok (), { receiver with target := change receiver.target }) := rfl

@[simp] theorem start_modifyProgress (change : Progress → Progress) (receiver : Receiver) :
    (modifyProgress change).start receiver =
      (.ok (), { receiver with target.progress := change receiver.target.progress }) := rfl

@[simp] theorem start_setEngine (engine : Engine) (receiver : Receiver) :
    (setEngine engine).start receiver = (.ok (), { receiver with copy.engine := engine }) := rfl

@[simp] theorem start_count (change : Log.Metrics → Log.Metrics) (receiver : Receiver) :
    (count change).start receiver =
      (.ok (), { receiver with journal := receiver.journal.count change }) := rfl

@[simp] theorem start_log (event : Log.Event) (fields : List (String × String))
    (receiver : Receiver) :
    (log event fields).start receiver =
      (.ok (), { receiver with
        journal := receiver.journal.log
          (.ofEvent event (receiver.target.logFields ++ fields)) }) := rfl

theorem start_bind (step : Receiving α) (next : α → Receiving β) (receiver : Receiver) :
    (step >>= next).start receiver =
      match step.start receiver with
      | (.ok value, receiver) => (next value).start receiver
      | (.error error, receiver) => (.error error, receiver) := by
  change (ExceptT.bindCont next (step.start receiver).1) (step.start receiver).2 = _
  cases step.start receiver with
  | mk outcome between => cases outcome <;> rfl

theorem start_bind_of_ok {step : Receiving α} {next : α → Receiving β}
    {receiver between : Receiver} {value : α} (ran : step.start receiver = (.ok value, between)) :
    (step >>= next).start receiver = (next value).start between := by
  rw [start_bind, ran]

/-- A sequence that succeeds has succeeded step by step. -/
theorem bind_ok {step : Receiving α} {next : α → Receiving β} {receiver final : Receiver}
    {value : β} (ran : (step >>= next).start receiver = (.ok value, final)) :
    ∃ middle between, step.start receiver = (.ok middle, between) ∧
      (next middle).start between = (.ok value, final) := by
  rw [start_bind] at ran
  cases first : step.start receiver with
  | mk outcome between =>
      cases outcome with
      | error error => simp [first] at ran
      | ok middle => exact ⟨middle, between, rfl, by simpa [first] using ran⟩

/-- A sequence that fails has failed in its first step, or after it. -/
theorem bind_error {step : Receiving α} {next : α → Receiving β} {receiver final : Receiver}
    {error : Error} (ran : (step >>= next).start receiver = (.error error, final)) :
    step.start receiver = (.error error, final) ∨
      ∃ middle between, step.start receiver = (.ok middle, between) ∧
        (next middle).start between = (.error error, final) := by
  rw [start_bind] at ran
  cases first : step.start receiver with
  | mk outcome between =>
      cases outcome with
      | error cause => exact .inl (by simpa [first] using ran)
      | ok middle => exact .inr ⟨middle, between, rfl, by simpa [first] using ran⟩

theorem start_get_bind (next : Receiver → Receiving β) (receiver : Receiver) :
    ((get : Receiving Receiver) >>= next).start receiver = (next receiver).start receiver := rfl

/-- A check that is followed by something changes nothing, and has to succeed. -/
theorem check_bind_ok {outcome : Except Error α} {next : α → Receiving β}
    {receiver final : Receiver} {value : β}
    (ran : (check outcome >>= next).start receiver = (.ok value, final)) :
    ∃ middle, outcome = .ok middle ∧ (next middle).start receiver = (.ok value, final) := by
  cases outcome with
  | error error => simp [start_bind] at ran
  | ok middle => exact ⟨middle, rfl, by simpa [start_bind] using ran⟩

theorem check_bind_error {outcome : Except Error α} {next : α → Receiving β}
    {receiver final : Receiver} {error : Error}
    (ran : (check outcome >>= next).start receiver = (.error error, final)) :
    final = receiver ∨
      ∃ middle, outcome = .ok middle ∧ (next middle).start receiver = (.error error, final) := by
  cases outcome with
  | error cause =>
      simp only [start_bind, start_check, Prod.mk.injEq] at ran
      exact .inl ran.2.symm
  | ok middle => exact .inr ⟨middle, rfl, by simpa [start_bind] using ran⟩

theorem pure_ok {given value : α} {receiver final : Receiver}
    (ran : (pure given : Receiving α).start receiver = (.ok value, final)) :
    given = value ∧ final = receiver := by
  simp only [start_pure, Prod.mk.injEq, Except.ok.injEq] at ran
  exact ⟨ran.1, ran.2.symm⟩

theorem start_transition {phase : Phase} {receiver : Receiver}
    (may : receiver.target.progress.phase.mayBecome phase = true) :
    (transition phase).start receiver =
      (.ok (), { receiver with target.progress.phase := phase }) := by
  simp only [transition, start_bind, start_get, start_check, Progress.transition, may, ↓reduceIte,
    start_modifyProgress]

theorem transition_ok {phase : Phase} {receiver final : Receiver}
    (ran : (transition phase).start receiver = (.ok (), final)) :
    receiver.target.progress.phase.mayBecome phase = true ∧
      final = { receiver with target.progress.phase := phase } := by
  simp only [transition, start_bind, start_get, start_check, Progress.transition] at ran
  by_cases may : receiver.target.progress.phase.mayBecome phase = true
  · simp only [may, ↓reduceIte, start_modifyProgress, Prod.mk.injEq, true_and] at ran
    exact ⟨may, ran.symm⟩
  · simp [may] at ran

theorem start_onStore (operation : Store → Except StoreError Store) (receiver : Receiver) :
    (onStore operation).start receiver =
      match operation receiver.copy.store with
      | .ok store => (.ok (), { receiver with copy.store := store })
      | .error error => (.error (.ofStore error), receiver) := by
  simp only [onStore, start_bind, start_get, start_check]
  cases operation receiver.copy.store <;> rfl

theorem start_throughStore (operation : Store → Except StoreError α × Store)
    (receiver : Receiver) :
    (throughStore operation).start receiver =
      ((operation receiver.copy.store).1.mapError Error.ofStore,
        { receiver with copy.store := (operation receiver.copy.store).2 }) := rfl

/-- The part of the receiver that `view` shows is the same after the step as
before it, whatever came of the step. -/
def Keeps {γ : Type} (view : Receiver → γ) (step : Receiving α) : Prop :=
  ∀ receiver, view (step.start receiver).2 = view receiver

namespace Keeps

variable {γ : Type} {view : Receiver → γ}

theorem pure (value : α) : Keeps view (Pure.pure value : Receiving α) := fun _ => rfl

theorem throw (error : Error) : Keeps view (MonadExcept.throw error : Receiving α) :=
  fun _ => rfl

/-- What would follow a failure is of no account. -/
theorem throw_bind (error : Error) (next : α → Receiving β) :
    Keeps view (MonadExcept.throw error >>= next) := fun _ => rfl

theorem check (outcome : Except Error α) : Keeps view (Receiving.check outcome) := fun _ => rfl

theorem get : Keeps view (MonadState.get : Receiving Receiver) := fun _ => rfl

theorem bind {step : Receiving α} {next : α → Receiving β} (first : Keeps view step)
    (second : ∀ value, Keeps view (next value)) : Keeps view (step >>= next) := by
  intro receiver
  have kept := first receiver
  rw [start_bind]
  cases ran : step.start receiver with
  | mk outcome between =>
      rw [ran] at kept
      cases outcome with
      | error error => exact kept
      | ok value => exact (second value between).trans kept

theorem ite {condition : Prop} [Decidable condition] {first second : Receiving α}
    (left : Keeps view first) (right : Keeps view second) :
    Keeps view (if condition then first else second) := by
  split
  · exact left
  · exact right

theorem modifyTarget {change : Target → Target}
    (same : ∀ receiver : Receiver,
      view { receiver with target := change receiver.target } = view receiver) :
    Keeps view (Receiving.modifyTarget change) := same

theorem modifyProgress {change : Progress → Progress}
    (same : ∀ receiver : Receiver,
      view { receiver with target.progress := change receiver.target.progress } =
        view receiver) :
    Keeps view (Receiving.modifyProgress change) := same

theorem setEngine {engine : Engine}
    (same : ∀ receiver : Receiver, view { receiver with copy.engine := engine } = view receiver) :
    Keeps view (Receiving.setEngine engine) := same

theorem count {change : Log.Metrics → Log.Metrics}
    (same : ∀ receiver : Receiver,
      view { receiver with journal := receiver.journal.count change } = view receiver) :
    Keeps view (Receiving.count change) := same

theorem log {event : Log.Event} {fields : List (String × String)}
    (same : ∀ (receiver : Receiver) (line : Log.Line),
      view { receiver with journal := receiver.journal.log line } = view receiver) :
    Keeps view (Receiving.log event fields) := fun receiver => same receiver _

theorem transition {phase : Phase}
    (same : ∀ receiver : Receiver, receiver.target.progress.phase.mayBecome phase = true →
      view { receiver with target.progress.phase := phase } = view receiver) :
    Keeps view (Receiving.transition phase) := by
  intro receiver
  simp only [Receiving.transition, start_bind, start_get, start_check, Progress.transition]
  split
  · next may progress between moved =>
      split at moved
      · next may =>
          obtain ⟨rfl, rfl⟩ : _ = progress ∧ receiver = between := by simpa using moved
          exact same receiver may
      · simp at moved
  · next moved =>
      simp only [Prod.mk.injEq] at moved
      rw [moved.2]

theorem throughStore {operation : Store → Except StoreError α × Store}
    (same : ∀ receiver : Receiver,
      view { receiver with copy.store := (operation receiver.copy.store).2 } = view receiver) :
    Keeps view (Receiving.throughStore operation) := same

theorem onStore {operation : Store → Except StoreError Store}
    (same : ∀ (receiver : Receiver) (store : Store),
      operation receiver.copy.store = .ok store →
        view { receiver with copy.store := store } = view receiver) :
    Keeps view (Receiving.onStore operation) := by
  intro receiver
  rw [start_onStore]
  cases performed : operation receiver.copy.store with
  | error error => rfl
  | ok store => exact same receiver store performed

theorem foldlM {step : β → α → Receiving β} (each : ∀ result item, Keeps view (step result item))
    (items : List α) (initial : β) : Keeps view (items.foldlM step initial) := by
  induction items generalizing initial with
  | nil => exact pure initial
  | cons item items ih =>
      rw [List.foldlM_cons]
      exact bind (each initial item) ih

theorem forM {items : List α} {step : α → Receiving Unit}
    (each : ∀ item ∈ items, Keeps view (step item)) : Keeps view (items.forM step) := by
  induction items with
  | nil => exact pure ()
  | cons item items ih =>
      rw [List.forM_eq_forM, List.forM_cons]
      refine bind (each item List.mem_cons_self) fun _ => ?_
      rw [← List.forM_eq_forM]
      exact ih fun later member => each later (List.mem_cons_of_mem _ member)

theorem mapM {items : List α} {step : α → Receiving β}
    (each : ∀ item ∈ items, Keeps view (step item)) : Keeps view (items.mapM step) := by
  induction items with
  | nil => exact pure []
  | cons item items ih =>
      rw [List.mapM_cons]
      refine bind (each item List.mem_cons_self) fun _ => ?_
      exact bind (ih fun later member => each later (List.mem_cons_of_mem _ member))
        fun _ => pure _

/-- A step that keeps a view keeps all that can be seen in it. -/
theorem part {δ : Type} {step : Receiving α} (kept : Keeps view step) (seen : γ → δ) :
    Keeps (fun receiver => seen (view receiver)) step :=
  fun receiver => congrArg seen (kept receiver)

/-- What a step has kept, whatever came of it. -/
theorem after {step : Receiving α} (kept : Keeps view step) {receiver final : Receiver}
    {outcome : Except Error α} (ran : step.start receiver = (outcome, final)) :
    view final = view receiver := by
  have same := kept receiver
  rwa [ran] at same

/-- What a step that succeeded has kept. -/
theorem of_ok {step : Receiving α} (kept : Keeps view step) {receiver final : Receiver}
    {value : α} (ran : step.start receiver = (.ok value, final)) : view final = view receiver :=
  kept.after ran

end Keeps

/-- The step ends in a value and a receiver that `post` is true of, or fails and leaves a
receiver that `fallen` is true of. -/
def Ensures (fallen : Receiver → Prop) (step : Receiving α) (post : α → Receiver → Prop)
    (receiver : Receiver) : Prop :=
  match step.start receiver with
  | (.ok value, after) => post value after
  | (.error _, after) => fallen after

section Ensures

variable {fallen : Receiver → Prop} {receiver : Receiver}

theorem Ensures.of_ok {step : Receiving α} {post : α → Receiver → Prop} {final : Receiver}
    {value : α} (ensures : Ensures fallen step post receiver)
    (ran : step.start receiver = (.ok value, final)) : post value final := by
  rwa [Ensures, ran] at ensures

theorem Ensures.of_error {step : Receiving α} {post : α → Receiver → Prop} {final : Receiver}
    {error : Error} (ensures : Ensures fallen step post receiver)
    (ran : step.start receiver = (.error error, final)) : fallen final := by
  rwa [Ensures, ran] at ensures

theorem Ensures.mono {wider : Receiver → Prop} {step : Receiving α}
    {post further : α → Receiver → Prop} (ensures : Ensures fallen step post receiver)
    (failed : ∀ after, fallen after → wider after)
    (passed : ∀ value after, post value after → further value after) :
    Ensures wider step further receiver := by
  unfold Ensures at ensures ⊢
  split
  · next ran =>
      rw [ran] at ensures
      exact passed _ _ ensures
  · next ran =>
      rw [ran] at ensures
      exact failed _ ensures

/-- What is true of all receivers with the same view is true after a step that keeps it. -/
theorem Ensures.of_keeps {γ : Type} {view : Receiver → γ} {step : Receiving α}
    (kept : Keeps view step)
    (holds : ∀ after : Receiver, view after = view receiver → fallen after) :
    Ensures fallen step (fun _ => fallen) receiver := by
  have same := kept receiver
  unfold Ensures
  split
  · next ran =>
      rw [ran] at same
      exact holds _ same
  · next ran =>
      rw [ran] at same
      exact holds _ same

@[simp] theorem ensures_bind {step : Receiving α} {next : α → Receiving β}
    {post : β → Receiver → Prop} :
    Ensures fallen (step >>= next) post receiver ↔
      Ensures fallen step (fun value between => Ensures fallen (next value) post between)
        receiver := by
  simp only [Ensures, start_bind]
  cases step.start receiver with
  | mk outcome between => cases outcome <;> rfl

@[simp] theorem ensures_pure {value : α} {post : α → Receiver → Prop} :
    Ensures fallen (pure value : Receiving α) post receiver ↔ post value receiver := Iff.rfl

@[simp] theorem ensures_throw {error : Error} {post : α → Receiver → Prop} :
    Ensures fallen (throw error : Receiving α) post receiver ↔ fallen receiver := Iff.rfl

@[simp] theorem ensures_get {post : Receiver → Receiver → Prop} :
    Ensures fallen (get : Receiving Receiver) post receiver ↔ post receiver receiver := Iff.rfl

@[simp] theorem ensures_modifyTarget {change : Target → Target}
    {post : Unit → Receiver → Prop} :
    Ensures fallen (modifyTarget change) post receiver ↔
      post () { receiver with target := change receiver.target } := Iff.rfl

@[simp] theorem ensures_modifyProgress {change : Progress → Progress}
    {post : Unit → Receiver → Prop} :
    Ensures fallen (modifyProgress change) post receiver ↔
      post () { receiver with target.progress := change receiver.target.progress } := Iff.rfl

@[simp] theorem ensures_setEngine {engine : Engine} {post : Unit → Receiver → Prop} :
    Ensures fallen (setEngine engine) post receiver ↔
      post () { receiver with copy.engine := engine } := Iff.rfl

@[simp] theorem ensures_count {change : Log.Metrics → Log.Metrics}
    {post : Unit → Receiver → Prop} :
    Ensures fallen (count change) post receiver ↔
      post () { receiver with journal := receiver.journal.count change } := Iff.rfl

theorem ensures_log {event : Log.Event} {fields : List (String × String)}
    {post : Unit → Receiver → Prop}
    (every : ∀ journal, post () { receiver with journal }) :
    Ensures fallen (log event fields) post receiver := every _

/-- A check that fails changes nothing. -/
theorem ensures_check {outcome : Except Error α} {post : α → Receiver → Prop}
    (unchanged : fallen receiver) (passed : ∀ value, outcome = .ok value → post value receiver) :
    Ensures fallen (check outcome) post receiver := by
  cases outcome with
  | error error => exact unchanged
  | ok value => exact passed value rfl

theorem ensures_throughStore {operation : Store → Except StoreError α × Store}
    {post : α → Receiver → Prop}
    (failed : ∀ store, fallen { receiver with copy.store := store })
    (passed : ∀ value store, post value { receiver with copy.store := store }) :
    Ensures fallen (throughStore operation) post receiver := by
  rw [Ensures, start_throughStore]
  cases (operation receiver.copy.store).1 with
  | error error => exact failed _
  | ok value => exact passed value _

theorem ensures_onStore {operation : Store → Except StoreError Store}
    {post : Unit → Receiver → Prop} (unchanged : fallen receiver)
    (passed : ∀ store, post () { receiver with copy.store := store }) :
    Ensures fallen (onStore operation) post receiver := by
  rw [Ensures, start_onStore]
  cases operation receiver.copy.store with
  | error error => exact unchanged
  | ok store => exact passed store

theorem ensures_transition {phase : Phase} {post : Unit → Receiver → Prop}
    (may : receiver.target.progress.phase.mayBecome phase = true)
    (moved : post () { receiver with target.progress.phase := phase }) :
    Ensures fallen (transition phase) post receiver := by
  rwa [Ensures, start_transition may]

end Ensures

end ShardSync.Recovery.Receiving
