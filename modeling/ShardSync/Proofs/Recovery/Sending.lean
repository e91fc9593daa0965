import ShardSync.Recovery.Source.Handle

/-!
# Running the steps of a session

What has to hold of a sender before a step so that a given condition holds
after it. A step may fail, and for what it leaves then there is a condition of
its own, the same for all steps of a sequence.
-/

set_option autoImplicit false

namespace ShardSync.Recovery.Sending

variable {α β : Type} {fallen : Sender → Prop}

/-- The step ends in a value and a sender that `post` is true of, or fails and
leaves a sender that `fallen` is true of. -/
def Ensures (fallen : Sender → Prop) (step : Sending α) (post : α → Sender → Prop)
    (sender : Sender) : Prop :=
  match step.start sender with
  | (.ok value, after) => post value after
  | (.error _, after) => fallen after

theorem Ensures.mono {step : Sending α} {post wider : α → Sender → Prop} {sender : Sender}
    (ensures : Ensures fallen step post sender)
    (included : ∀ value after, post value after → wider value after) :
    Ensures fallen step wider sender := by
  unfold Ensures at ensures ⊢
  split
  · next ran =>
      rw [ran] at ensures
      exact included _ _ ensures
  · next failed =>
      rw [failed] at ensures
      exact ensures

/-- A step that cannot fail. -/
theorem Ensures.ok {step : Sending α} {post : α → Sender → Prop} {sender : Sender}
    (ensures : Ensures (fun _ => False) step post sender) :
    ∃ value after, step.start sender = (.ok value, after) ∧ post value after := by
  unfold Ensures at ensures
  split at ensures
  · next value after ran => exact ⟨value, after, ran, ensures⟩
  · exact ensures.elim

theorem start_bind (step : Sending α) (next : α → Sending β) (sender : Sender) :
    (step >>= next).start sender =
      match step.start sender with
      | (.ok value, between) => (next value).start between
      | (.error error, between) => (.error error, between) := by
  change (ExceptT.bindCont next (step.start sender).1) (step.start sender).2 = _
  cases step.start sender with
  | mk outcome between => cases outcome <;> rfl

theorem start_bind_of_ok {sender after : Sender} {step : Sending α}
    {next : α → Sending β} {value : α}
    (ran : step.start sender = (.ok value, after)) :
    (step >>= next).start sender = (next value).start after := by
  rw [start_bind, ran]

@[simp] theorem ensures_bind {step : Sending α} {next : α → Sending β}
    {post : β → Sender → Prop} {sender : Sender} :
    Ensures fallen (step >>= next) post sender ↔
      Ensures fallen step (fun value between => Ensures fallen (next value) post between)
        sender := by
  simp only [Ensures, start_bind]
  cases step.start sender with
  | mk outcome between => cases outcome <;> rfl

@[simp] theorem ensures_pure {value : α} {post : α → Sender → Prop} {sender : Sender} :
    Ensures fallen (pure value : Sending α) post sender ↔ post value sender := Iff.rfl

@[simp] theorem ensures_throw {error : Error} {post : α → Sender → Prop} {sender : Sender} :
    Ensures fallen (throw error : Sending α) post sender ↔ fallen sender := Iff.rfl

@[simp] theorem ensures_check {outcome : Except Error α} {post : α → Sender → Prop}
    {sender : Sender} :
    Ensures fallen (check outcome) post sender ↔
      match outcome with
      | .ok value => post value sender
      | .error _ => fallen sender := by
  cases outcome <;> rfl

@[simp] theorem ensures_get {post : Sender → Sender → Prop} {sender : Sender} :
    Ensures fallen (get : Sending Sender) post sender ↔ post sender sender := Iff.rfl

@[simp] theorem ensures_modify {change : Sender → Sender} {post : Unit → Sender → Prop}
    {sender : Sender} :
    Ensures fallen (modify change : Sending Unit) post sender ↔ post () (change sender) := Iff.rfl

@[simp] theorem ensures_modifyDelivery {change : Delivery → Delivery}
    {post : Unit → Sender → Prop} {sender : Sender} :
    Ensures fallen (modifyDelivery change) post sender ↔
      post () { sender with delivery := change sender.delivery } := Iff.rfl

@[simp] theorem ensures_modifyProgress {change : Progress → Progress}
    {post : Unit → Sender → Prop} {sender : Sender} :
    Ensures fallen (modifyProgress change) post sender ↔
      post () { sender with
        delivery.session.progress := change sender.delivery.session.progress } := Iff.rfl

@[simp] theorem ensures_setStage {stage : Stage} {post : Unit → Sender → Prop}
    {sender : Sender} :
    Ensures fallen (setStage stage) post sender ↔
      post () { sender with delivery.stage := stage } := Iff.rfl

@[simp] theorem ensures_count {change : Log.Metrics → Log.Metrics}
    {post : Unit → Sender → Prop} {sender : Sender} :
    Ensures fallen (count change) post sender ↔
      post () { sender with journal := sender.journal.count change } := Iff.rfl

@[simp] theorem ensures_request {command : Command} {post : Request → Sender → Prop}
    {sender : Sender} :
    Ensures fallen (request command) post sender ↔
      post
        (.step (.ofNat sender.delivery.session.numbered) sender.delivery.session.recovery
          sender.delivery.session.shard command)
        { sender with
          delivery.session.numbered := sender.delivery.session.numbered + 1 } := Iff.rfl

@[simp] theorem ensures_send {sent : Request} {timeout : Nat} {post : Unit → Sender → Prop}
    {sender : Sender} :
    Ensures fallen (send sent timeout) post sender ↔
      post () { sender with
        delivery.outstanding :=
          sender.delivery.outstanding ++ [{ request := sent, timeout }] } := Iff.rfl

@[simp] theorem ensures_transition {phase : Phase} {post : Unit → Sender → Prop}
    {sender : Sender} :
    Ensures fallen (transition phase) post sender ↔
      if sender.delivery.session.progress.phase.mayBecome phase then
        post () { sender with delivery.session.progress.phase := phase }
      else fallen sender := by
  simp only [transition, ensures_bind, ensures_get, ensures_check, Progress.transition]
  cases sender.delivery.session.progress.phase.mayBecome phase <;> rfl

@[simp] theorem ensures_checkCancelled {post : Unit → Sender → Prop} {sender : Sender} :
    Ensures fallen checkCancelled post sender ↔
      match sender.delivery.session.cancellation.check with
      | .ok () => post () sender
      | .error _ => fallen sender := by
  simp only [checkCancelled, ensures_bind, ensures_get, ensures_check]
  cases sender.delivery.session.cancellation.check <;> rfl

@[simp] theorem ensures_openScope {name : String} {post : Unit → Sender → Prop}
    {sender : Sender} :
    Ensures fallen (openScope name) post sender ↔
      post () { sender with
        journal := sender.journal.log
          (Log.Scope.opened { name, fields := sender.delivery.session.logFields })
        delivery.scope? := some
          ({ name, fields := sender.delivery.session.logFields }, sender.delivery.clock) } :=
  Iff.rfl

/-- Closing a scope changes nothing but the journal and the scope. -/
theorem ensures_closeScope {results : List (String × String)} {post : Unit → Sender → Prop}
    {sender : Sender}
    (every : ∀ journal scope?, post () { sender with journal, delivery.scope? := scope? }) :
    Ensures fallen (closeScope results) post sender := by
  simp only [closeScope, ensures_bind, ensures_get]
  cases sender.delivery.scope? with
  | none => exact every sender.journal sender.delivery.scope?
  | some scope =>
      obtain ⟨scope, opened⟩ := scope
      exact every _ none

theorem start_arrange {planner : Sender → Except Error Agenda} {next : Sending Unit}
    {sender : Sender} {agenda : Agenda} (planned : planner sender = .ok agenda) :
    (do
      let agenda ← check (planner (← get))
      modifyDelivery fun delivery => { delivery with agenda }
      next : Sending Unit).start sender = next.start { sender with delivery.agenda := agenda } := by
  change (check (planner sender) >>= _ : Sending Unit).start sender = _
  rw [planned]
  rfl

theorem start_pinFiles {sender : Sender} {snapshot : Snapshot} {store : Store}
    (taken : sender.source.store.takeSnapshot = .ok (snapshot, store)) :
    pinFiles.start sender = (.ok snapshot.files, { sender with
      source.store := store
      delivery.snapshot? := some snapshot }) := by
  change (check (sender.source.store.takeSnapshot.mapError Error.ofStore) >>= _ :
    Sending (List FileMetadata)).start _ = _
  rw [taken]
  rfl

theorem start_checkCancelled {sender : Sender}
    (unasked : sender.delivery.session.cancellation.reason? = none) :
    checkCancelled.start sender = (.ok (), sender) := by
  change (check sender.delivery.session.cancellation.check).start sender = _
  rw [Cancellation.check, unasked]
  rfl

/-- A session whose turn has come pins the source's files and announces what it has
planned. -/
theorem start_begin {sender : Sender} {snapshot : Snapshot} {store : Store} {agenda : Agenda}
    (unasked : sender.delivery.session.cancellation.reason? = none)
    (taken : sender.source.store.takeSnapshot = .ok (snapshot, store))
    (planned : plan { sender with source.store := store, delivery.snapshot? := some snapshot }
      snapshot.files = .ok agenda) :
    begin.start sender = sendFiles.start { sender with
      source.store := store
      delivery.snapshot? := some snapshot
      delivery.agenda := agenda } := by
  rw [begin, start_bind_of_ok (start_pinFiles taken),
    start_bind_of_ok (start_checkCancelled (by exact unasked))]
  exact start_arrange planned

end ShardSync.Recovery.Sending
