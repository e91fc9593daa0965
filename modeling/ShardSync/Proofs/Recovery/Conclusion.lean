import ShardSync.Proofs.Recovery.Underway

/-!
# How a session is concluded

A session that fails tells the target to give up, and is over when that has been answered
or not. A session that is done is over at once. Either way it has released its files by
then; only after that is its result reported.
-/

set_option autoImplicit false

namespace ShardSync.Recovery

/-- Why a session fails, and the phase that it is in then. -/
structure Failure where
  cause : Error
  phase : Phase
deriving Repr, DecidableEq

/-- The basis without the pins of the session. -/
def Basis.released (basis : Basis) : Basis :=
  match basis.snapshot? with
  | none => basis
  | some snapshot =>
      { basis with
        source.store := basis.source.store.release snapshot
        snapshot? := none }

@[simp] theorem Basis.snapshot?_released (basis : Basis) : basis.released.snapshot? = none := by
  unfold released
  split
  · next none => exact none
  · rfl

/-- The phase that a session with the given result ends in. -/
def endOf : Except Error Int64 → Phase
  | .ok _ => .done
  | .error _ => .failed

def endsCancelled : Except Error Int64 → Bool
  | .ok _ => false
  | .error error => error.isCancellation

namespace Sender

/-- The session is over, but its result has not been reported. -/
def conclude (sender : Sender) (result : Except Error Int64) : Sender :=
  { sender.release with
    delivery.stage := .ended result
    delivery.outstanding := [] }

/-- Takes in what came of a step. -/
def takeIn : Except Error (Option Int64) × Sender → Sender
  | (.ok (some checkpoint), sender) => sender.conclude (.ok checkpoint)
  | outcome => settle outcome

/-- The failure that a session meets when it takes in what came of a step. -/
def failure? : Except Error (Option Int64) × Sender → Option Failure
  | (.error error, sender) => some ⟨error, sender.phase⟩
  | (.ok (some _), _) => none
  | (.ok none, sender) =>
      match sender.delivery.session.cancellation.check with
      | .ok () => none
      | .error error => if sender.delivery.isWaiting then some ⟨error, sender.phase⟩ else none

/-- What comes of the answer to a request of a session that has not failed. -/
def answered (sender : Sender) (request : Request) :
    Except Error Reply → Except Error (Option Int64) × Sender
  | .error error => (.error error, sender)
  | .ok reply => (Sending.proceed request reply).start sender

/-- Takes the answer to one of the outstanding requests. -/
def take (sender : Sender) (index : Nat) (answer : Except Error Reply) : Sender :=
  match sender.delivery.outstanding[index]? with
  | none => sender
  | some sent =>
      match sender.delivery.stage with
      | .cancelling error => (sender.without index).conclude (.error error)
      | _ => takeIn ((sender.without index).answered sent.request answer)

/-- What comes of the first step of a session. -/
def opening (sender : Sender) : Except Error (Option Int64) × Sender :=
  (do Sending.begin; return none : Sending (Option Int64)).start sender

/-- The result of a session that is over is reported. -/
def reported (sender : Sender) : Sender :=
  match sender.delivery.result? with
  | none => sender
  | some result => sender.report result

variable {holds : Basis → Prop} {sender : Sender}

theorem reported_of_result {result : Except Error Int64}
    (ended : sender.delivery.result? = some result) : sender.reported = sender.report result := by
  rw [reported, ended]

theorem reported_of_unended (unended : sender.delivery.result? = none) :
    sender.reported = sender := by
  rw [reported, unended]

/-- A session that has failed and has told the target to give up. -/
structure Cancelling (holds : Basis → Prop) (error : Error) (sender : Sender) : Prop where
  stage : sender.delivery.stage = .cancelling error
  phase : sender.phase = .failed
  flag : sender.delivery.session.progress.isCancelled = error.isCancellation
  asked : ∃ timeout, sender.delivery.outstanding = [{
    request := .cancel sender.basis.recovery sender.basis.shard error.detail
    timeout }]
  basis : holds sender.basis

/-- A session that is over. -/
structure Over (holds : Basis → Prop) (result : Except Error Int64) (sender : Sender) : Prop where
  stage : sender.delivery.stage = .ended result
  idle : sender.delivery.outstanding = []
  phase : sender.phase = endOf result
  flag : sender.delivery.session.progress.isCancelled = endsCancelled result
  basis : holds sender.basis
  free : sender.delivery.snapshot? = none

/-- What a session comes to that takes in what came of a step. -/
inductive Settles (holds : Basis → Prop) : Option Failure → Sender → Prop where
  | waits {after : Sender} (waits : after.Waits holds) : Settles holds none after
  | fails {after : Sender} {cause error : Error} {phase : Phase}
      (cancelling : after.Cancelling holds error) (going : phase.isTerminal = false)
      (same : error = (cause.inContext after.basis.recovery after.basis.shard).inPhase phase) :
      Settles holds (some ⟨cause, phase⟩) after
  | finishes {after : Sender} {checkpoint : Int64} (finished : after.Over holds (.ok checkpoint)) :
      Settles holds none after

theorem Waits.result? (waits : sender.Waits holds) : sender.delivery.result? = none := by
  have waiting := waits.waiting
  unfold Delivery.isWaiting at waiting
  unfold Delivery.result?
  split
  · next stage => simp [stage] at waiting
  · rfl

theorem Cancelling.result? {error : Error} (cancelling : sender.Cancelling holds error) :
    sender.delivery.result? = none := by
  rw [Delivery.result?, cancelling.stage]

theorem Over.result? {result : Except Error Int64} (finished : sender.Over holds result) :
    sender.delivery.result? = some result := by
  rw [Delivery.result?, finished.stage]

theorem Settles.basis {met : Option Failure} (settles : Settles holds met sender) :
    holds sender.basis := by
  cases settles with
  | waits waits => exact waits.basis
  | fails cancelling => exact cancelling.basis
  | finishes finished => exact finished.basis

theorem basis_release (sender : Sender) : sender.release.basis = sender.basis.released := by
  obtain ⟨delivery, source, journal⟩ := sender
  cases pinned : delivery.snapshot? with
  | none => simp [release, basis, Basis.released, pinned]
  | some snapshot => simp [release, basis, Basis.released, pinned]

theorem session_release (sender : Sender) :
    sender.release.delivery.session = sender.delivery.session := by
  unfold release
  split <;> rfl

theorem Underway.without (underway : sender.Underway holds) (index : Nat) :
    Underway holds (sender.without index) :=
  ⟨underway.going, underway.calm,
    fun sent member => underway.ordinary sent (List.mem_of_mem_eraseIdx member), underway.basis⟩

/-- A session that fails keeps what it has pinned until the target has been told. -/
theorem Underway.fail (underway : sender.Underway holds) (cause : Error) :
    Settles holds (some ⟨cause, sender.phase⟩) (sender.fail cause) := by
  have scope : ∃ journal scope?, journal.metrics = sender.journal.metrics ∧
      sender.failScope cause = { sender with journal, delivery.scope? := scope? } := by
    unfold failScope
    split
    · exact ⟨_, _, rfl, rfl⟩
    · next scope _ _ => exact ⟨sender.journal.log (scope.failed cause.message), none, rfl, rfl⟩
  obtain ⟨journal, scope?, metrics, same⟩ := scope
  have basis : (sender.fail cause).basis = sender.basis := by
    simp only [Sender.fail, same, Sender.basis, metrics]
  have cancelling : (sender.fail cause).Cancelling holds (sender.locate cause) := by
    have calm := underway.calm
    refine ⟨?_, ?_, ?_, ?_, by rw [basis]; exact underway.basis⟩
    · simp only [Sender.fail, same]
      rfl
    · simp only [Sender.fail, same, Sender.phase, Progress.fail_of_going underway.going]
    · simp only [Sender.fail, same, Progress.fail_of_going underway.going, calm]
      rfl
    · rw [basis]
      simp only [Sender.fail, same]
      exact ⟨_, rfl⟩
  refine .fails cancelling underway.going ?_
  rw [basis]
  rfl

theorem result?_fail (sender : Sender) (cause : Error) :
    (sender.fail cause).delivery.result? = none := rfl

theorem conclude_over (releases : ∀ basis, holds basis → holds basis.released)
    {result : Except Error Int64} (phase : sender.phase = endOf result)
    (flag : sender.delivery.session.progress.isCancelled = endsCancelled result)
    (basis : holds sender.basis) : (sender.conclude result).Over holds result where
  stage := rfl
  idle := rfl
  phase := by
    rw [← phase]
    exact congrArg (·.progress.phase) sender.session_release
  flag := by
    rw [← flag]
    exact congrArg (·.progress.isCancelled) sender.session_release
  basis := by
    have same : (sender.conclude result).basis = sender.basis.released := sender.basis_release
    rw [same]
    exact releases _ basis
  free := by
    have same : (sender.conclude result).delivery.snapshot? = sender.basis.released.snapshot? :=
      congrArg Basis.snapshot? sender.basis_release
    rw [same, Basis.snapshot?_released]

/-- A session that waits, or would wait, stops if somebody has asked it to. -/
theorem Waits.abandon (waits : sender.Waits holds) :
    Settles holds (failure? (.ok none, sender)) (takeIn (.ok none, sender)) := by
  unfold failure? takeIn settle
  dsimp only
  cases sender.delivery.session.cancellation.check with
  | ok => exact .waits waits
  | error cause =>
      dsimp only
      rw [if_pos waits.waiting, if_pos waits.waiting]
      exact waits.fail cause

/-- A session that does not wait has nothing to stop waiting for. -/
theorem takeIn_of_not_waiting (idle : sender.delivery.isWaiting = false) :
    takeIn (.ok none, sender) = sender := by
  unfold takeIn settle
  dsimp only
  split
  · rfl
  · exact if_neg (ne_true_of_eq_false idle)

theorem settles_takeIn (releases : ∀ basis, holds basis → holds basis.released)
    {step : Sending (Option Int64)}
    (ensures : Sending.Ensures (Underway holds) step (Sending.Proceeded holds) sender) :
    Settles holds (failure? (step.start sender)) (takeIn (step.start sender)) := by
  unfold Sending.Ensures at ensures
  generalize step.start sender = outcome at ensures ⊢
  obtain ⟨outcome, after⟩ := outcome
  cases outcome with
  | error cause => exact Underway.fail ensures cause
  | ok result? =>
      cases result? with
      | none => exact Waits.abandon ensures
      | some checkpoint =>
          exact .finishes (conclude_over releases ensures.phase ensures.calm ensures.basis)

/-- A session takes in what came of a step, and reports its result if it is over then. -/
theorem settle_eq_reported {step : Sending (Option Int64)}
    (ensures : Sending.Ensures (Underway holds) step (Sending.Proceeded holds) sender) :
    settle (step.start sender) = (takeIn (step.start sender)).reported := by
  unfold Sending.Ensures at ensures
  generalize step.start sender = outcome at ensures ⊢
  obtain ⟨outcome, after⟩ := outcome
  cases outcome with
  | error cause => rfl
  | ok result? =>
      cases result? with
      | some checkpoint => rfl
      | none =>
          have waits : after.Waits holds := ensures
          have unended : after.reported = after := reported_of_unended waits.result?
          unfold takeIn settle
          dsimp only
          cases after.delivery.session.cancellation.check with
          | ok => exact unended.symm
          | error cause =>
              dsimp only
              rw [if_pos waits.waiting]
              rfl

/-- The failure that an answer makes a session meet. -/
def failureOf (sender : Sender) (index : Nat) (answer : Except Error Reply) : Option Failure :=
  match sender.delivery.outstanding[index]? with
  | none => none
  | some sent =>
      if sender.delivery.isWaiting then
        failure? ((sender.without index).answered sent.request answer)
      else none

theorem Waits.take (waits : sender.Waits holds)
    (releases : ∀ basis, holds basis → holds basis.released) (index : Nat)
    (answer : Except Error Reply) :
    Settles holds (sender.failureOf index answer) (sender.take index answer) := by
  have waiting := waits.waiting
  unfold failureOf Sender.take
  cases sender.delivery.outstanding[index]? with
  | none => exact .waits waits
  | some sent =>
      dsimp only
      rw [if_pos waiting]
      have settles : Settles holds (failure? ((sender.without index).answered sent.request answer))
          (takeIn ((sender.without index).answered sent.request answer)) := by
        have underway := waits.toUnderway.without index
        cases answer with
        | error cause => exact underway.fail cause
        | ok reply =>
            exact settles_takeIn releases
              (Sending.ensures_proceed_underway underway waits.ready sent.request reply)
      split
      · next stage =>
          rw [Delivery.isWaiting, stage] at waiting
          cases waiting
      · exact settles

theorem Waits.receive_eq (waits : sender.Waits holds) (index : Nat)
    (answer : Except Error Reply) :
    sender.receive index answer = (sender.take index answer).reported := by
  have waiting := waits.waiting
  cases found : sender.delivery.outstanding[index]? with
  | none =>
      unfold receive Sender.take
      rw [found]
      exact (reported_of_unended waits.result?).symm
  | some sent =>
      have going : sender.isCancelling = false := by
        unfold Delivery.isWaiting at waiting
        unfold isCancelling
        split
        · next stage => simp [stage] at waiting
        · rfl
      have taken : sender.take index answer =
          takeIn ((sender.without index).answered sent.request answer) := by
        unfold Sender.take
        rw [found]
        dsimp only
        split
        · next stage => simp [Delivery.isWaiting, stage] at waiting
        · rfl
      rw [Sender.receive_eq found going, taken]
      cases answer with
      | error cause => rfl
      | ok reply =>
          exact settle_eq_reported (Sending.ensures_proceed_underway
            (waits.toUnderway.without index) waits.ready sent.request reply)

theorem Cancelling.receive_eq {error : Error} (cancelling : sender.Cancelling holds error)
    (index : Nat) (answer : Except Error Reply) :
    sender.receive index answer = (sender.take index answer).reported := by
  unfold receive Sender.take
  cases sender.delivery.outstanding[index]? with
  | none => exact (reported_of_unended cancelling.result?).symm
  | some sent =>
      rw [cancelling.stage]
      rfl

theorem Waits.abandon_eq (waits : sender.Waits holds) :
    sender.abandon = (takeIn (.ok none, sender)).reported := by
  have ensures : Sending.Ensures (Underway holds) (pure none) (Sending.Proceeded holds) sender :=
    waits
  exact settle_eq_reported ensures

/-- The answer to its cancellation, or the lack of one, ends a session that has failed. -/
theorem Cancelling.take {error : Error} (cancelling : sender.Cancelling holds error)
    (releases : ∀ basis, holds basis → holds basis.released) (index : Nat)
    (answer : Except Error Reply) :
    sender.take index answer = sender ∨ (sender.take index answer).Over holds (.error error) := by
  unfold Sender.take
  cases sender.delivery.outstanding[index]? with
  | none => exact .inl rfl
  | some sent =>
      dsimp only
      rw [cancelling.stage]
      refine .inr (conclude_over releases ?_ cancelling.flag cancelling.basis)
      exact cancelling.phase

theorem Over.take {result : Except Error Int64} (finished : sender.Over holds result) (index : Nat)
    (answer : Except Error Reply) : sender.take index answer = sender := by
  unfold Sender.take
  rw [finished.idle]
  rfl

/-- A session whose turn has come, with nothing sent or pinned yet. -/
structure Fresh (holds : Basis → Prop) (sender : Sender) : Prop
    extends sender.Underway holds where
  phase : sender.phase = .init
  stage : sender.delivery.stage = .queued
  idle : sender.delivery.outstanding = []

theorem Fresh.ensures_opening (fresh : sender.Fresh holds)
    (pinned : ∀ snapshot store, sender.source.store.takeSnapshot = .ok (snapshot, store) →
      holds { sender.basis with
        source := { sender.source with store }
        snapshot? := some snapshot }) :
    Sending.Ensures (Underway holds) (do Sending.begin; return none : Sending (Option Int64))
      (Sending.Proceeded holds) sender := by
  rw [Sending.ensures_bind]
  exact (Sending.ensures_begin_underway fresh.toUnderway pinned).mono fun _ _ waits => waits

theorem Fresh.begin (fresh : sender.Fresh holds)
    (releases : ∀ basis, holds basis → holds basis.released)
    (pinned : ∀ snapshot store, sender.source.store.takeSnapshot = .ok (snapshot, store) →
      holds { sender.basis with
        source := { sender.source with store }
        snapshot? := some snapshot }) :
    Settles holds (failure? sender.opening) (takeIn sender.opening) :=
  settles_takeIn releases (fresh.ensures_opening pinned)

/-- A session that is asked to stop is asked no more than that. -/
theorem Waits.cancel (waits : sender.Waits holds) (reason : String) :
    (sender.cancel reason).Waits holds :=
  ⟨⟨waits.going, waits.calm, waits.ordinary, waits.basis⟩, waits.waiting, waits.ready⟩

theorem Cancelling.cancel {error : Error} (cancelling : sender.Cancelling holds error)
    (reason : String) : (sender.cancel reason).Cancelling holds error :=
  ⟨cancelling.stage, cancelling.phase, cancelling.flag, cancelling.asked, cancelling.basis⟩

theorem Over.cancel {result : Except Error Int64} (finished : sender.Over holds result)
    (reason : String) : (sender.cancel reason).Over holds result :=
  ⟨finished.stage, finished.idle, finished.phase, finished.flag, finished.basis, finished.free⟩

theorem Fresh.cancel (fresh : sender.Fresh holds) (reason : String) :
    (sender.cancel reason).Fresh holds :=
  ⟨⟨fresh.going, fresh.calm, fresh.ordinary, fresh.basis⟩, fresh.phase, fresh.stage, fresh.idle⟩

section Moved

/-! Something else than the session may change its source, and write to the journal. -/

variable {other : Sender} {others : Basis → Prop}

theorem Fresh.moved (fresh : sender.Fresh holds) (same : other.delivery = sender.delivery)
    (basis : others other.basis) : other.Fresh others := by
  obtain ⟨delivery, source, journal⟩ := other
  cases same
  exact ⟨⟨fresh.going, fresh.calm, fresh.ordinary, basis⟩, fresh.phase, fresh.stage, fresh.idle⟩

theorem Waits.moved (waits : sender.Waits holds) (same : other.delivery = sender.delivery)
    (basis : others other.basis) : other.Waits others := by
  obtain ⟨delivery, source, journal⟩ := other
  cases same
  exact ⟨⟨waits.going, waits.calm, waits.ordinary, basis⟩, waits.waiting, waits.ready⟩

theorem Cancelling.moved {error : Error} (cancelling : sender.Cancelling holds error)
    (same : other.delivery = sender.delivery) (basis : others other.basis) :
    other.Cancelling others error := by
  obtain ⟨delivery, source, journal⟩ := other
  cases same
  exact ⟨cancelling.stage, cancelling.phase, cancelling.flag, cancelling.asked, basis⟩

theorem Over.moved {result : Except Error Int64} (finished : sender.Over holds result)
    (same : other.delivery = sender.delivery) (basis : others other.basis) :
    other.Over others result := by
  obtain ⟨delivery, source, journal⟩ := other
  cases same
  exact ⟨finished.stage, finished.idle, finished.phase, finished.flag, basis, finished.free⟩

end Moved

end Sender

end ShardSync.Recovery
