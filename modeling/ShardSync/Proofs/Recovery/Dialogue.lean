import ShardSync.Proofs.Recovery.Course
import ShardSync.Proofs.Recovery.Messages
import ShardSync.Proofs.Recovery.Standing
import ShardSync.Recovery.Exchange.Basic

/-!
# A session and its target

One recovery from the start of its session, as a network may treat it. Requests
and answers are delivered in any order or not at all, chunks and batches more than
once; and the session may be asked to stop, or stop to wait for an answer, at any
time. Whatever happens, a session that succeeds has a target that has succeeded.
-/

set_option autoImplicit false

namespace ShardSync.Recovery

/-- Whether a request asks the target to finish. -/
def Request.isFinal : Request → Bool
  | .step _ _ _ (.finalize _) => true
  | _ => false

def Request.isCancel : Request → Bool
  | .cancel _ _ _ => true
  | .step _ _ _ _ => false

/-- Whether a request may be delivered more than once. -/
def Request.mayRepeat : Request → Bool
  | .step _ _ _ (.transfer _ _) | .step _ _ _ (.replay _ _) => true
  | _ => false

/-- A reply as the session takes it from the wire. -/
def Reply.heard (reply : Reply) : Except Error Reply :=
  (Reply.decode reply.write).mapError Error.ofDecoding >>= Reply.toExcept

theorem Reply.heard_eq_finalizeAck_iff (reply : Reply) (checkpoint : Int64) :
    reply.heard = .ok (.finalizeAck checkpoint) ↔ reply = .finalizeAck checkpoint := by
  constructor
  · intro taken
    unfold heard at taken
    cases decoded : Reply.decode reply.write with
    | error error =>
        rw [decoded] at taken
        cases taken
    | ok other =>
        obtain ⟨_, rfl⟩ := (Reply.decode_write_iff reply other).mp decoded
        rw [decoded] at taken
        cases other with
        | failure code detail => cases taken
        | _ => exact Except.ok.inj taken
  · rintro rfl
    have decoded := (Reply.decode_write_iff (.finalizeAck checkpoint) _).mpr ⟨trivial, rfl⟩
    unfold heard
    rw [decoded]
    rfl

namespace Service

/-- What comes back when a request is sent to the service. -/
def respond (service : Service) (request : Request) : Except Error Reply × Service :=
  let (output, service) := service.handleBytes request.write
  ((Reply.decode output).mapError Error.ofDecoding >>= Reply.toExcept, service)

theorem respond_of_readable {request : Request} (readable : request.IsReadable)
    (service : Service) :
    service.respond request = ((service.handle request).1.heard, (service.handle request).2) := by
  unfold respond handleBytes
  rw [(Request.decode_write_iff request request).mpr ⟨readable, rfl⟩]
  rfl

/-- A request that cannot be read changes nothing and is refused. -/
theorem respond_of_unreadable {request : Request} (unreadable : ¬ request.IsReadable)
    (service : Service) : ∃ error, service.respond request = (.error error, service) := by
  unfold respond handleBytes
  cases decoded : Request.decode request.write with
  | ok other => exact absurd ((Request.decode_write_iff request other).mp decoded).1 unreadable
  | error error =>
      dsimp only
      cases answered : Reply.decode (Reply.ofError (.ofDecoding error)).write with
      | error error => exact ⟨_, rfl⟩
      | ok reply =>
          obtain ⟨_, rfl⟩ := (Reply.decode_write_iff _ reply).mp answered
          exact ⟨_, rfl⟩

variable {script : Script} {place : Place} {before : Store} {service after : Service}
  {request : Request} {reply : Reply} {checkpoint : Int64} {phase : Phase}

/-- The recovery of a session is done, and the checkpoint that the target has
acknowledged is the end of what it was to replay. -/
def HasConcluded (service : Service) (script : Script) (checkpoint : Int64) : Prop :=
  service.HasEnded script .done ∧ ∃ agenda, script.agenda? = some agenda ∧
    checkpoint = .ofInt (script.start.startSeqNo.toInt + agenda.totalOps.toNat - 1)

theorem Handles.stands (handles : service.Handles script place before request reply after)
    (stands : service.Stands script place before) : after.Stands script place before := by
  cases handles with
  | continued _ _ _ stands => exact stands
  | failed _ _ stands => exact stands
  | finished _ _ stands => exact stands
  | stray => exact stands

/-- What is over stays so. -/
theorem Handles.lasting (handles : service.Handles script place before request reply after)
    (ended : service.HasEnded script phase) : after.HasEnded script phase := by
  cases handles with
  | continued going => exact absurd ended.1 going
  | failed going => exact absurd ended.1 going
  | finished going => exact absurd ended.1 going
  | stray => exact ended

theorem Handles.concluded
    (handles : service.Handles script place before request (.finalizeAck checkpoint) after) :
    request.isFinal = true ∧ after.HasConcluded script checkpoint := by
  cases handles with
  | continued _ _ pending => exact absurd rfl (pending checkpoint)
  | failed _ pending => exact absurd rfl (pending checkpoint)
  | finished _ planned _ ended => exact ⟨rfl, ended, _, planned, rfl⟩
  | stray _ pending => exact absurd rfl (pending checkpoint)

/-- Only an acknowledgement of the request to finish makes the recovery done. -/
theorem Handles.unfinished (handles : service.Handles script place before request reply after)
    (pending : ∀ checkpoint, reply ≠ .finalizeAck checkpoint)
    (unfinished : ¬ service.HasEnded script .done) : ¬ after.HasEnded script .done := by
  intro ended
  cases handles with
  | continued _ _ _ _ still => exact still ended.1
  | failed _ _ _ failed => cases failed.exclusive ended
  | finished => exact pending _ rfl
  | stray => exact unfinished ended

theorem Handles.cancelled (handles : service.Handles script place before request reply after)
    (cancels : request.isCancel = true) (unfinished : ¬ service.HasEnded script .done) :
    after.HasEnded script .failed := by
  cases handles with
  | continued _ ordinary =>
      cases request with
      | step => cases cancels
      | cancel => cases ordinary
  | failed _ _ _ ended => exact ended
  | finished => cases cancels
  | stray past => exact past.resolve_right unfinished

/-- What a session's request makes of its recovery, whether it can be read or not. -/
theorem Stands.respond (stands : service.Stands script place before)
    (asked : before.Lists script.start.files) (allowed : script.Allows request) :
    (service.respond request).2.Stands script place before ∧
      (∀ phase, service.HasEnded script phase →
        (service.respond request).2.HasEnded script phase) ∧
      ∀ checkpoint, (service.respond request).1 = .ok (.finalizeAck checkpoint) →
        request.isFinal = true ∧ (service.respond request).2.HasConcluded script checkpoint := by
  by_cases readable : request.IsReadable
  · have handles := stands.handle asked allowed
    rw [respond_of_readable readable]
    refine ⟨handles.stands stands, fun phase => handles.lasting, fun checkpoint answered => ?_⟩
    rw [(Reply.heard_eq_finalizeAck_iff _ checkpoint).mp answered] at handles
    exact handles.concluded
  · obtain ⟨error, refused⟩ := respond_of_unreadable readable service
    rw [refused]
    exact ⟨stands, fun _ ended => ended, fun _ answered => by cases answered⟩

theorem Stands.respond_unfinished (stands : service.Stands script place before)
    (asked : before.Lists script.start.files) (allowed : script.Allows request)
    (pending : ∀ checkpoint, (service.respond request).1 ≠ .ok (.finalizeAck checkpoint))
    (unfinished : ¬ service.HasEnded script .done) :
    ¬ (service.respond request).2.HasEnded script .done := by
  by_cases readable : request.IsReadable
  · rw [respond_of_readable readable] at pending ⊢
    refine (stands.handle asked allowed).unfinished (fun checkpoint acknowledged => ?_) unfinished
    exact pending checkpoint ((Reply.heard_eq_finalizeAck_iff _ checkpoint).mpr acknowledged)
  · obtain ⟨error, refused⟩ := respond_of_unreadable readable service
    rw [refused]
    exact unfinished

/-- A cancellation that can be read ends a recovery that is not done. -/
theorem Stands.respond_cancelled (stands : service.Stands script place before)
    (asked : before.Lists script.start.files) (allowed : script.Allows request)
    (cancels : request.isCancel = true) (readable : request.IsReadable)
    (unfinished : ¬ service.HasEnded script .done) :
    (service.respond request).2.HasEnded script .failed := by
  rw [respond_of_readable readable]
  exact (stands.handle asked allowed).cancelled cancels unfinished

end Service

structure Dialogue where
  sender : Sender
  service : Service
  /-- The requests that may still arrive. -/
  requests : List Request := []
  /-- The answers that may still arrive, with the requests that they answer. -/
  answers : List (Request × Except Error Reply) := []

inductive Occurrence where
  /-- The session gets its turn. -/
  | launch
  /-- Somebody asks the session to stop. -/
  | cancel (reason : String)
  /-- The session stops to wait, if somebody has asked it to stop. -/
  | abandon
  /-- A request arrives. It may arrive again if that is allowed. -/
  | deliver (index : Nat) (again : Bool)
  /-- An outstanding request gets one of its answers. -/
  | answer (index position : Nat)
  /-- The session gets no answer to an outstanding request: it waits no longer, or
  the connection fails. -/
  | lose (index : Nat) (error : Error)

/-- Whether the session goes on to wait for the answers to its requests. -/
def Occurrence.isFaithful : Occurrence → Bool
  | .abandon | .lose _ _ => false
  | _ => true

namespace Dialogue

def opened (script : Script) (service : Service) : Dialogue where
  sender := script.opened
  service

/-- The requests that a session has sent when it has come from one delivery to
another. -/
def sent (before after : Delivery) : List Request :=
  (after.outstanding.filter fun sent => sent ∉ before.outstanding).map (·.request)

def onSender (dialogue : Dialogue) (change : Sender → Sender) : Dialogue :=
  { dialogue with
    sender := change dialogue.sender
    requests :=
      dialogue.requests ++ sent dialogue.sender.delivery (change dialogue.sender).delivery }

def deliver (dialogue : Dialogue) (index : Nat) (again : Bool) : Dialogue :=
  match dialogue.requests[index]? with
  | none => dialogue
  | some request =>
      let (answer, service) := dialogue.service.respond request
      { dialogue with
        service
        requests := if again && request.mayRepeat then dialogue.requests
          else dialogue.requests.eraseIdx index
        answers := dialogue.answers ++ [(request, answer)] }

def answer (dialogue : Dialogue) (index position : Nat) : Dialogue :=
  match dialogue.sender.delivery.outstanding[index]?, dialogue.answers[position]? with
  | some sent, some (request, answer) =>
      if sent.request = request then
        { dialogue.onSender (·.receive index answer) with
          answers := dialogue.answers.eraseIdx position }
      else dialogue
  | _, _ => dialogue

/-- What happens next. Nothing changes if that is not possible. -/
def next (dialogue : Dialogue) : Occurrence → Dialogue
  | .launch => dialogue.onSender Sender.launch
  | .cancel reason => dialogue.onSender (·.cancel reason)
  | .abandon => dialogue.onSender Sender.abandon
  | .deliver index again => dialogue.deliver index again
  | .answer index position => dialogue.answer index position
  | .lose index error => dialogue.onSender (·.receive index (.error error))

def run (dialogue : Dialogue) (occurrences : List Occurrence) : Dialogue :=
  occurrences.foldl next dialogue

variable {script : Script} {place : Place} {before : Store} {dialogue : Dialogue}
  {change : Sender → Sender}

theorem outstanding_of_mem_sent {before after : Delivery} {request : Request}
    (member : request ∈ sent before after) :
    ∃ sent ∈ after.outstanding, sent.request = request := by
  obtain ⟨sent, fresh, same⟩ := List.mem_map.mp member
  exact ⟨sent, List.mem_of_mem_filter fresh, same⟩

theorem sent_of_same {before after : Delivery} (same : after.outstanding = before.outstanding) :
    sent before after = [] := by
  rw [sent, same, List.map_eq_nil_iff, List.filter_eq_nil_iff]
  intro sent member
  simpa using member

/-- A session takes an answer if that answers what it waits for. -/
theorem answer_cases (dialogue : Dialogue) (index position : Nat) :
    dialogue.answer index position = dialogue ∨
      ∃ sent answer, dialogue.sender.delivery.outstanding[index]? = some sent ∧
        dialogue.answers[position]? = some (sent.request, answer) ∧
        dialogue.answer index position =
          { dialogue.onSender (·.receive index answer) with
            answers := dialogue.answers.eraseIdx position } := by
  unfold answer
  split
  · next sent request answer outstanding found =>
      split
      · next same =>
          rw [← same] at found
          exact .inr ⟨sent, answer, outstanding, found, rfl⟩
      · exact .inl rfl
  · exact .inl rfl

/-- What holds of a recovery in every run. -/
structure Sustains (script : Script) (place : Place) (before : Store) (dialogue : Dialogue) :
    Prop where
  fits : dialogue.sender.Fits script
  stands : dialogue.service.Stands script place before
  allowed : ∀ request ∈ dialogue.requests, script.Allows request
  /-- An acknowledgement that is on its way tells the truth. -/
  answered : ∀ entry ∈ dialogue.answers, ∀ checkpoint,
    entry.2 = .ok (.finalizeAck checkpoint) → dialogue.service.HasConcluded script checkpoint
  ended : ∀ checkpoint, dialogue.sender.delivery.stage = .ended (.ok checkpoint) →
    dialogue.service.HasConcluded script checkpoint

namespace Sustains

theorem opened {service : Service} (stands : service.Stands script place before) :
    (Dialogue.opened script service).Sustains script place before where
  fits := Sender.fits_opened script
  stands := stands
  allowed request member := by cases member
  answered entry member := by cases member
  ended checkpoint stage := by cases stage

theorem onSender (sustains : dialogue.Sustains script place before)
    (fits : (change dialogue.sender).Fits script)
    (ended : ∀ checkpoint, (change dialogue.sender).delivery.stage = .ended (.ok checkpoint) →
      dialogue.service.HasConcluded script checkpoint) :
    (dialogue.onSender change).Sustains script place before where
  fits := fits
  stands := sustains.stands
  allowed request member := by
    cases List.mem_append.mp member with
    | inl earlier => exact sustains.allowed request earlier
    | inr fresh =>
        obtain ⟨sent, outstanding, rfl⟩ := outstanding_of_mem_sent fresh
        exact fits.allows sent outstanding
  answered := sustains.answered
  ended := ended

theorem continued (sustains : dialogue.Sustains script place before)
    (continues : (change dialogue.sender).Continues script) :
    (dialogue.onSender change).Sustains script place before := by
  refine sustains.onSender continues.1 fun checkpoint stage => ?_
  cases continues.2 with
  | inl waiting => simp [Delivery.isWaiting, stage] at waiting
  | inr cancelling => simp [Sender.isCancelling, stage] at cancelling

theorem same (sustains : dialogue.Sustains script place before)
    (same : change dialogue.sender = dialogue.sender) :
    (dialogue.onSender change).Sustains script place before := by
  apply sustains.onSender
  · rw [same]
    exact sustains.fits
  · rw [same]
    exact sustains.ended

/-- Whatever a session is answered, it succeeds only by an acknowledgement. -/
theorem receive (sustains : dialogue.Sustains script place before) (index : Nat)
    {answer : Except Error Reply}
    (truthful : ∀ checkpoint, answer = .ok (.finalizeAck checkpoint) →
      dialogue.service.HasConcluded script checkpoint) :
    (dialogue.onSender (·.receive index answer)).Sustains script place before := by
  cases found : dialogue.sender.delivery.outstanding[index]? with
  | none =>
      apply sustains.same
      unfold Sender.receive
      rw [found]
  | some sent =>
      cases sustains.fits.receives found answer with
      | continued _ _ continues => exact sustains.continued continues
      | acknowledged _ answered fits ended =>
          refine sustains.onSender fits fun checkpoint stage => ?_
          rw [ended] at stage
          cases stage
          exact truthful _ answered
      | refused _ _ fits ended =>
          refine sustains.onSender fits fun checkpoint stage => ?_
          simp [Sender.isCancelling, stage] at ended
      | released _ fits ended =>
          refine sustains.onSender fits fun checkpoint stage => ?_
          rw [ended] at stage
          cases stage

theorem deliver (sustains : dialogue.Sustains script place before)
    (asked : before.Lists script.start.files) (index : Nat) (again : Bool) :
    (dialogue.deliver index again).Sustains script place before := by
  unfold Dialogue.deliver
  cases found : dialogue.requests[index]? with
  | none => exact sustains
  | some request =>
      have allowed := sustains.allowed request (List.mem_of_getElem? found)
      obtain ⟨stands, lasting, truthful⟩ := sustains.stands.respond asked allowed
      refine ⟨sustains.fits, stands, fun other member => ?_, fun entry member => ?_,
        fun checkpoint stage => ?_⟩
      · apply sustains.allowed
        dsimp only at member
        split at member
        · exact member
        · exact List.mem_of_mem_eraseIdx member
      · cases List.mem_append.mp member with
        | inl earlier =>
            intro checkpoint acknowledged
            obtain ⟨done, planned⟩ := sustains.answered entry earlier checkpoint acknowledged
            exact ⟨lasting _ done, planned⟩
        | inr fresh =>
            obtain rfl := List.mem_singleton.mp fresh
            exact fun checkpoint acknowledged => (truthful checkpoint acknowledged).2
      · obtain ⟨done, planned⟩ := sustains.ended checkpoint stage
        exact ⟨lasting _ done, planned⟩

theorem next (sustains : dialogue.Sustains script place before)
    (asked : before.Lists script.start.files) (occurrence : Occurrence) :
    (dialogue.next occurrence).Sustains script place before := by
  cases occurrence with
  | launch =>
      cases sustains.fits.launch with
      | inl same => exact sustains.same same
      | inr launched => exact sustains.continued launched.2
  | cancel reason =>
      change (dialogue.onSender (·.cancel reason)).Sustains script place before
      exact sustains.onSender (sustains.fits.cancel reason) sustains.ended
  | abandon =>
      cases sustains.fits.abandon with
      | inl same => exact sustains.same same
      | inr abandoned => exact sustains.continued abandoned.2
  | deliver index again => exact sustains.deliver asked index again
  | answer index position =>
      change (dialogue.answer index position).Sustains script place before
      rcases answer_cases dialogue index position with same | ⟨sent, answer, _, found, same⟩
      · rw [same]
        exact sustains
      · have taken := sustains.receive index
          (sustains.answered (sent.request, answer) (List.mem_of_getElem? found))
        rw [same]
        refine ⟨taken.fits, taken.stands, taken.allowed, fun entry member => ?_, taken.ended⟩
        exact taken.answered entry (List.mem_of_mem_eraseIdx member)
  | lose index error => exact sustains.receive index fun checkpoint answered => by cases answered

theorem run (sustains : dialogue.Sustains script place before)
    (asked : before.Lists script.start.files) (occurrences : List Occurrence) :
    (dialogue.run occurrences).Sustains script place before := by
  induction occurrences generalizing dialogue with
  | nil => exact sustains
  | cons occurrence occurrences ih => exact ih (sustains.next asked occurrence)

end Sustains

end Dialogue

end ShardSync.Recovery
