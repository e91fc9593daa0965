import ShardSync.Proofs.Recovery.Phases
import ShardSync.Proofs.Recovery.Script

/-!
# The course of a session

What the events of a session make of it. A session that goes on is at a stage
of its script after every event; it ends well only by the acknowledgement of its
request to finish, and badly only when its cancellation has been answered.
-/

set_option autoImplicit false

namespace ShardSync.Recovery

open Sending (Ensures Proceeds Keeping)

namespace Sender

variable {script : Script} {agenda : Agenda} {sender : Sender}

def isCancelling (sender : Sender) : Bool :=
  match sender.delivery.stage with
  | .cancelling _ => true
  | _ => false

/-- A session that fails tells the target to give up. -/
theorem fits_fail (engaged : sender.Engaged script) (error : Error) :
    (sender.fail error).Fits script ∧ (sender.fail error).isCancelling = true := by
  have scope : ∃ journal scope?,
      sender.failScope error = { sender with journal, delivery.scope? := scope? } := by
    unfold failScope
    split
    · exact ⟨_, _, rfl⟩
    · exact ⟨_, _, rfl⟩
  obtain ⟨journal, scope?, same⟩ := scope
  obtain ⟨recovery, shard⟩ := Sending.ids_of_engaged engaged
  simp only [fail, same, Progress.fail_of_going engaged.going]
  refine ⟨.cancelling engaged.serves rfl rfl ?_, rfl⟩
  rw [recovery, shard]
  exact ⟨_, rfl⟩

/-- The session waits for an answer, or for the one to its cancellation. -/
def Continues (script : Script) (after : Sender) : Prop :=
  after.Fits script ∧ (after.delivery.isWaiting = true ∨ after.isCancelling = true)

theorem Engaged.continues (engaged : sender.Engaged script) (error : Error) :
    (sender.fail error).Continues script :=
  ⟨(fits_fail engaged error).1, .inr (fits_fail engaged error).2⟩

/-- A session that waits for an answer is going on. -/
theorem Fits.engaged (fits : sender.Fits script) (waiting : sender.delivery.isWaiting = true) :
    sender.Engaged script := by
  cases fits with
  | queued engaged => exact engaged
  | announcing busy => exact busy.toEngaged
  | sending busy => exact busy.toEngaged
  | completing busy => exact busy.toEngaged
  | replaying busy => exact busy.toEngaged
  | finalizing engaged => exact engaged
  | cancelling _ _ stage => simp [Delivery.isWaiting, stage] at waiting
  | failed _ _ stage => simp [Delivery.isWaiting, stage] at waiting
  | done _ _ _ _ _ stage => simp [Delivery.isWaiting, stage] at waiting

/-- No step of a session changes the source's files, or what else it goes by. -/
theorem Fits.serves (fits : sender.Fits script) :
    sender.mandate = script.opened.mandate := by
  cases fits with
  | queued engaged => exact engaged.serves
  | finalizing engaged => exact engaged.serves
  | announcing busy => exact busy.serves
  | sending busy => exact busy.serves
  | completing busy => exact busy.serves
  | replaying busy => exact busy.serves
  | cancelling serves => exact serves
  | failed serves => exact serves
  | done serves => exact serves

theorem continues_settle {step : Sending (Option Int64)}
    (ensures : Ensures (Sender.Engaged script) step
      (fun result after => result = none ∧ Proceeds script after) sender) :
    (settle (step.start sender)).Continues script := by
  unfold Ensures at ensures
  cases ran : step.start sender with
  | mk outcome after =>
      rw [ran] at ensures
      cases outcome with
      | error error => exact Engaged.continues ensures error
      | ok result =>
          obtain ⟨rfl, fits, waiting⟩ := ensures
          simp only [settle, waiting, if_true]
          split
          · exact ⟨fits, .inl waiting⟩
          · exact (fits.engaged waiting).continues _

/-- The session without one of its outstanding requests. -/
def without (sender : Sender) (index : Nat) : Sender :=
  { sender with delivery.outstanding := sender.delivery.outstanding.eraseIdx index }

theorem Busy.without (busy : sender.Busy script agenda) (index : Nat) :
    Busy script agenda (sender.without index) :=
  ⟨⟨busy.serves, busy.going⟩, busy.planned, busy.agenda,
    fun sent member => busy.ordinary sent (List.mem_of_mem_eraseIdx member)⟩

theorem idle_without {index : Nat} {sent : Outstanding}
    (found : sender.delivery.outstanding[index]? = some sent)
    (single : sender.delivery.outstanding.length ≤ 1) :
    (sender.without index).delivery.outstanding = [] := by
  have inside := (List.getElem?_eq_some_iff.mp found).1
  apply List.eq_nil_of_length_eq_zero
  rw [without, List.length_eraseIdx_of_lt inside]
  omega

theorem receive_eq {index : Nat} {sent : Outstanding}
    (found : sender.delivery.outstanding[index]? = some sent)
    (going : sender.isCancelling = false) (answer : Except Error Reply) :
    sender.receive index answer =
      match answer with
      | .error error => (sender.without index).fail error
      | .ok reply =>
          settle ((Sending.proceed sent.request reply).start (sender.without index)) := by
  unfold receive
  rw [found]
  unfold isCancelling at going
  cases stage : sender.delivery.stage with
  | cancelling error =>
      rw [stage] at going
      cases going
  | _ => cases answer <;> rfl

theorem ensures_proceed_announcing (busy : sender.Busy script agenda)
    (stage : sender.delivery.stage = .announcing) (request : Request) (reply : Reply) :
    Ensures (Sender.Engaged script) (Sending.proceed request reply)
      (fun result after => result = none ∧ Proceeds script after) sender := by
  simp only [Sending.proceed, Sending.ensures_bind, Sending.ensures_get, stage]
  cases reply with
  | ack =>
      simp only [Sending.ensures_bind]
      refine (Sending.ensures_sendPieces busy ?_).mono fun _ after proceeds => ⟨rfl, proceeds⟩
      have settings : sender.delivery.settings = script.settings :=
        congrArg Mandate.settings busy.serves
      rw [busy.agenda, settings]
      exact fun _ member => member
  | _ => exact busy.toEngaged

theorem ensures_proceed_sending {ready? : Option Request} {pieces : List Piece}
    (busy : sender.Busy script agenda) (stage : sender.delivery.stage = .sending ready? pieces)
    (ready : ∀ request ∈ ready?, script.Allows request ∧ request.isOrdinary = true)
    (cut : ∀ piece ∈ pieces, piece ∈ script.pieces agenda) (request : Request) (reply : Reply) :
    Ensures (Sender.Engaged script) (Sending.proceed request reply)
      (fun result after => result = none ∧ Proceeds script after) sender := by
  simp only [Sending.proceed, Sending.ensures_bind, Sending.ensures_get, stage]
  refine (Sending.ensures_acceptChunk busy request reply).mono fun _ between kept => ?_
  refine (Sending.ensures_resumePieces kept.1 ready cut).mono fun _ after proceeds => ?_
  exact ⟨rfl, proceeds⟩

theorem ensures_proceed_completing (busy : sender.Busy script agenda)
    (stage : sender.delivery.stage = .completing) (idle : sender.delivery.outstanding = [])
    (request : Request) (reply : Reply) :
    Ensures (Sender.Engaged script) (Sending.proceed request reply)
      (fun result after => result = none ∧ Proceeds script after) sender := by
  simp only [Sending.proceed, Sending.ensures_bind, Sending.ensures_get, stage]
  cases reply with
  | ack =>
      simp only [Sending.ensures_bind]
      refine (Sending.ensures_closeFiles busy).mono fun _ between kept => ?_
      refine (Sending.ensures_sendOperations kept.1 (kept.2.trans idle)).mono ?_
      exact fun _ after proceeds => ⟨rfl, proceeds⟩
  | _ => exact busy.toEngaged

theorem ensures_proceed_replaying {batch : List Operation} {rest : Batches}
    (busy : sender.Busy script agenda) (stage : sender.delivery.stage = .replaying batch rest)
    (idle : sender.delivery.outstanding = [])
    (divided : ∀ batch ∈ rest.batches, batch ∈ agenda.batches.batches)
    (gap : rest.gap? = agenda.batches.gap?) (request : Request) (reply : Reply) :
    Ensures (Sender.Engaged script) (Sending.proceed request reply)
      (fun result after => result = none ∧ Proceeds script after) sender := by
  simp only [Sending.proceed, Sending.ensures_bind, Sending.ensures_get, stage]
  refine (Sending.ensures_acceptBatch busy batch reply).mono fun _ between kept => ?_
  refine (Sending.ensures_sendBatch kept.1 (kept.2.trans idle) divided gap).mono ?_
  exact fun _ after proceeds => ⟨rfl, proceeds⟩

/-- What becomes of a session that takes an answer. -/
inductive Receives (script : Script) (sender : Sender) (answer : Except Error Reply)
    (after : Sender) : Prop where
  | continued (waiting : sender.delivery.isWaiting = true)
      (unasked : sender.delivery.stage ≠ .finalizing) (continues : after.Continues script)
  | acknowledged {checkpoint : Int64} (stage : sender.delivery.stage = .finalizing)
      (answered : answer = .ok (.finalizeAck checkpoint)) (fits : after.Fits script)
      (ended : after.delivery.stage = .ended (.ok checkpoint))
  | refused (stage : sender.delivery.stage = .finalizing)
      (answered : ∀ checkpoint, answer ≠ .ok (.finalizeAck checkpoint))
      (fits : after.Fits script) (ended : after.isCancelling = true)
  | released {error : Error} (stage : sender.delivery.stage = .cancelling error)
      (fits : after.Fits script) (ended : after.delivery.stage = .ended (.error error))

/-- An answer to a session that has not asked to finish. -/
theorem Busy.receives {index : Nat} {sent : Outstanding} (busy : sender.Busy script agenda)
    (found : sender.delivery.outstanding[index]? = some sent)
    (waiting : sender.delivery.isWaiting = true)
    (unasked : sender.delivery.stage ≠ .finalizing)
    (proceeds : ∀ reply, Ensures (Sender.Engaged script) (Sending.proceed sent.request reply)
      (fun result after => result = none ∧ Proceeds script after) (sender.without index))
    (answer : Except Error Reply) :
    sender.Receives script answer (sender.receive index answer) := by
  have going : sender.isCancelling = false := by
    unfold Delivery.isWaiting at waiting
    unfold isCancelling
    split
    · next error stage => simp [stage] at waiting
    · rfl
  refine .continued waiting unasked ?_
  rw [receive_eq found going]
  cases answer with
  | error error => exact (busy.without index).toEngaged.continues error
  | ok reply => exact continues_settle (proceeds reply)

/-- The acknowledgement of the request to finish is the last step of a session. -/
theorem ensures_proceed_finalizing (engaged : sender.Engaged script)
    (phase : sender.delivery.session.progress.phase = .finalize)
    (stage : sender.delivery.stage = .finalizing) (request : Request) (checkpoint : Int64) :
    Ensures (fun _ => False) (Sending.proceed request (.finalizeAck checkpoint))
      (fun result after => result = some checkpoint ∧ after.mandate = script.opened.mandate ∧
        after.delivery.agenda = sender.delivery.agenda ∧
        after.delivery.session.progress.phase = .done) sender := by
  simp only [Sending.proceed, Sending.ensures_bind, Sending.ensures_get, stage,
    Sending.ensures_transition, phase]
  rw [if_pos (by rfl)]
  apply Sending.ensures_closeScope
  intro journal scope?
  exact ⟨rfl, engaged.serves, rfl, rfl⟩

theorem ensures_proceed_refused (engaged : sender.Engaged script)
    (stage : sender.delivery.stage = .finalizing) (request : Request) {reply : Reply}
    (refused : ∀ checkpoint, reply ≠ .finalizeAck checkpoint) :
    Ensures (Sender.Engaged script) (Sending.proceed request reply) (fun _ _ => False)
      sender := by
  simp only [Sending.proceed, Sending.ensures_bind, Sending.ensures_get, stage]
  cases reply with
  | finalizeAck checkpoint => exact absurd rfl (refused checkpoint)
  | _ => exact engaged

/-- A session that is over has released its files and waits for nothing. -/
theorem finish_cases (sender : Sender) (result : Except Error Int64) :
    (sender.finish result).mandate = sender.mandate ∧
      (sender.finish result).delivery.agenda = sender.delivery.agenda ∧
      (sender.finish result).delivery.session = sender.delivery.session ∧
      (sender.finish result).delivery.stage = .ended result ∧
      (sender.finish result).delivery.outstanding = [] := by
  have released : sender.release.mandate = sender.mandate ∧
      sender.release.delivery.agenda = sender.delivery.agenda ∧
      sender.release.delivery.session = sender.delivery.session := by
    unfold release
    split
    · exact ⟨rfl, rfl, rfl⟩
    · exact ⟨rfl, rfl, rfl⟩
  unfold finish report
  cases result with
  | ok checkpoint => exact ⟨released.1, released.2.1, released.2.2, rfl, rfl⟩
  | error error =>
      dsimp only
      split
      · exact ⟨released.1, released.2.1, released.2.2, rfl, rfl⟩
      · exact ⟨released.1, released.2.1, released.2.2, rfl, rfl⟩

theorem Fits.receives {index : Nat} {sent : Outstanding} (fits : sender.Fits script)
    (found : sender.delivery.outstanding[index]? = some sent) (answer : Except Error Reply) :
    sender.Receives script answer (sender.receive index answer) := by
  cases fits with
  | queued _ _ idle => simp [idle] at found
  | announcing busy stage single =>
      apply busy.receives found (by simp [Delivery.isWaiting, stage]) (by simp [stage])
      exact ensures_proceed_announcing (busy.without index) stage _
  | sending busy stage ready cut =>
      apply busy.receives found (by simp [Delivery.isWaiting, stage]) (by simp [stage])
      exact ensures_proceed_sending (busy.without index) stage ready cut _
  | completing busy stage single =>
      apply busy.receives found (by simp [Delivery.isWaiting, stage]) (by simp [stage])
      exact ensures_proceed_completing (busy.without index) stage (idle_without found single) _
  | replaying busy stage single divided gap =>
      apply busy.receives found (by simp [Delivery.isWaiting, stage]) (by simp [stage])
      exact ensures_proceed_replaying (busy.without index) stage (idle_without found single)
        divided gap _
  | finalizing engaged planned same whole phase stage asked =>
      have waiting : Engaged script (sender.without index) := ⟨engaged.serves, engaged.going⟩
      rw [receive_eq found (by simp [isCancelling, stage])]
      cases answer with
      | error error =>
          obtain ⟨fits, ended⟩ := fits_fail waiting error
          exact .refused stage (by simp) fits ended
      | ok reply =>
          by_cases answered : ∃ checkpoint, reply = .finalizeAck checkpoint
          · obtain ⟨checkpoint, rfl⟩ := answered
            have ensures := ensures_proceed_finalizing waiting phase stage sent.request checkpoint
            unfold Ensures at ensures
            split at ensures
            · next ran =>
                obtain ⟨rfl, serves, kept, phase⟩ := ensures
                obtain ⟨finished, agendas, sessions, ended, idle⟩ :=
                  finish_cases _ (.ok checkpoint)
                dsimp only
                rw [ran]
                refine .acknowledged stage rfl ?_ ended
                exact .done (finished.trans serves) planned (agendas.trans (kept.trans same)) whole
                  ((congrArg (·.progress.phase) sessions).trans phase) ended idle
            · exact ensures.elim
          · have refused : ∀ checkpoint, reply ≠ .finalizeAck checkpoint :=
              fun checkpoint same => answered ⟨checkpoint, same⟩
            have ensures := ensures_proceed_refused waiting stage sent.request refused
            unfold Ensures at ensures
            split at ensures
            · exact ensures.elim
            · next ran =>
                obtain ⟨fits, ended⟩ := fits_fail ensures _
                dsimp only
                rw [ran]
                refine .refused stage (fun checkpoint same => ?_) fits ended
                cases same
                exact answered ⟨checkpoint, rfl⟩
  | cancelling serves phase stage asked =>
      unfold receive
      rw [found, stage]
      obtain ⟨finished, _, sessions, ended, idle⟩ :=
        finish_cases (sender.without index) (.error _)
      refine .released stage (.failed (finished.trans serves) ?_ ended idle) ended
      exact (congrArg (·.progress.phase) sessions).trans phase
  | failed _ _ _ idle => simp [idle] at found
  | done _ _ _ _ _ _ idle => simp [idle] at found

/-- The turn of a session comes once, while it is queued. -/
theorem Fits.launch (fits : sender.Fits script) :
    sender.launch = sender ∨
      sender.delivery.stage = .queued ∧ sender.launch.Continues script := by
  by_cases queued : sender.delivery.stage = .queued
  · cases fits with
    | queued engaged stage idle =>
        refine .inr ⟨stage, ?_⟩
        unfold Sender.launch
        rw [stage]
        cases sender.delivery.session.cancellation.check with
        | error error => exact engaged.continues error
        | ok _ =>
            apply continues_settle
            rw [Sending.ensures_bind]
            refine Ensures.mono (Sending.ensures_begin ?engaged ?idle) ?after
            case engaged => exact ⟨engaged.serves, engaged.going⟩
            case idle => exact idle
            case after => exact fun _ after proceeds => ⟨rfl, proceeds⟩
    | _ => simp_all
  · refine .inl ?_
    unfold Sender.launch
    split
    · next stage _ => exact absurd stage queued
    · next stage _ => exact absurd stage queued
    · rfl

/-- Only a session that waits for an answer can be stopped from waiting. -/
theorem Fits.abandon (fits : sender.Fits script) :
    sender.abandon = sender ∨
      sender.delivery.isWaiting = true ∧ sender.abandon.Continues script := by
  unfold Sender.abandon settle
  dsimp only
  split
  · exact .inl rfl
  · split
    · next waiting => exact .inr ⟨waiting, (fits.engaged waiting).continues _⟩
    · exact .inl rfl

/-- The session when somebody has asked it to stop. -/
def cancel (sender : Sender) (reason : String) : Sender :=
  { sender with delivery := (sender.delivery.cancel reason).2 }

/-- Asking a session to stop changes nothing that it has sent or will send. -/
theorem Fits.cancel (fits : sender.Fits script) (reason : String) :
    (sender.cancel reason).Fits script := by
  have busy {agenda : Agenda} (busy : sender.Busy script agenda) :
      (sender.cancel reason).Busy script agenda :=
    ⟨⟨busy.serves, busy.going⟩, busy.planned, busy.agenda, busy.ordinary⟩
  cases fits with
  | queued engaged stage idle => exact .queued ⟨engaged.serves, engaged.going⟩ stage idle
  | announcing known stage single => exact .announcing (busy known) stage single
  | sending known stage ready cut => exact .sending (busy known) stage ready cut
  | completing known stage single => exact .completing (busy known) stage single
  | replaying known stage single divided gap =>
      exact .replaying (busy known) stage single divided gap
  | finalizing engaged planned same whole phase stage asked =>
      exact .finalizing ⟨engaged.serves, engaged.going⟩ planned same whole phase stage asked
  | cancelling serves phase stage asked => exact .cancelling serves phase stage asked
  | failed serves phase stage idle => exact .failed serves phase stage idle
  | done serves planned same whole phase stage idle =>
      exact .done serves planned same whole phase stage idle

theorem fits_opened (script : Script) : script.opened.Fits script :=
  .queued ⟨rfl, rfl⟩ rfl rfl

/-- A session waits for answers to such requests only as it may send. -/
theorem Fits.allows (fits : sender.Fits script) :
    ∀ sent ∈ sender.delivery.outstanding, script.Allows sent.request := by
  cases fits with
  | queued _ _ idle => simp [idle]
  | announcing busy => exact fun sent member => (busy.ordinary sent member).1
  | sending busy => exact fun sent member => (busy.ordinary sent member).1
  | completing busy => exact fun sent member => (busy.ordinary sent member).1
  | replaying busy => exact fun sent member => (busy.ordinary sent member).1
  | finalizing _ planned _ whole _ _ asked =>
      obtain ⟨number, timeout, asked⟩ := asked
      rw [asked]
      exact List.forall_mem_singleton.mpr (.step planned (.finalize whole))
  | cancelling _ _ _ asked =>
      obtain ⟨timeout, asked⟩ := asked
      rw [asked]
      exact List.forall_mem_singleton.mpr .cancel
  | failed _ _ _ idle => simp [idle]
  | done _ _ _ _ _ _ idle => simp [idle]

/-- Whether the session has not asked to finish, and has not failed. -/
def isOpen (sender : Sender) : Bool :=
  match sender.delivery.stage with
  | .finalizing | .cancelling _ | .ended _ => false
  | _ => true

/-- Whether the session has failed. -/
def isShut (sender : Sender) : Bool :=
  match sender.delivery.stage with
  | .cancelling _ | .ended (.error _) => true
  | _ => false

theorem isOpen_of_waiting (waiting : sender.delivery.isWaiting = true)
    (unasked : sender.delivery.stage ≠ .finalizing) : sender.isOpen = true := by
  unfold Delivery.isWaiting at waiting
  unfold isOpen
  cases stage : sender.delivery.stage <;> simp_all

theorem isShut_of_isCancelling (cancelling : sender.isCancelling = true) :
    sender.isShut = true := by
  unfold isCancelling at cancelling
  unfold isShut
  cases stage : sender.delivery.stage <;> simp_all

/-- A session that has not asked to finish waits for ordinary requests only. -/
theorem Fits.ordinary (fits : sender.Fits script) (isOpen : sender.isOpen = true) :
    ∀ sent ∈ sender.delivery.outstanding, sent.request.isOrdinary = true := by
  unfold Sender.isOpen at isOpen
  cases fits with
  | queued _ _ idle => simp [idle]
  | announcing busy => exact fun sent member => (busy.ordinary sent member).2
  | sending busy => exact fun sent member => (busy.ordinary sent member).2
  | completing busy => exact fun sent member => (busy.ordinary sent member).2
  | replaying busy => exact fun sent member => (busy.ordinary sent member).2
  | finalizing _ _ _ _ _ stage => simp [stage] at isOpen
  | cancelling _ _ stage => simp [stage] at isOpen
  | failed _ _ stage => simp [stage] at isOpen
  | done _ _ _ _ _ stage => simp [stage] at isOpen

end Sender

end ShardSync.Recovery
