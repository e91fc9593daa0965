import ShardSync.Proofs.Outcome
import ShardSync.Proofs.Recovery.Agreement
import ShardSync.Proofs.Recovery.Limits

/-!
# How a history is sent

When the target has all files, a session sends its history batch by batch, each when the one
before it has been acknowledged. Where all of them are, they are the batches that the history
divides into. An acknowledged batch has been read by a target, so it is not larger than it
has been taken to be.
-/

set_option autoImplicit false

namespace ShardSync.Recovery

/-- The operations that a request brings. -/
def Request.batch? : Request → Option (List Operation)
  | .step _ _ _ (.replay batch _) => some batch
  | _ => none

theorem Service.readable_of_respond {service : Service} {request : Request} {reply : Reply}
    (answered : (service.respond request).1 = .ok reply) : request.IsReadable := by
  by_contra unreadable
  obtain ⟨error, refused⟩ := respond_of_unreadable unreadable service
  rw [refused] at answered
  cases answered

theorem Request.operations_readable {request : Request} {batch : List Operation}
    (readable : request.IsReadable) (brings : request.batch? = some batch) :
    ∀ operation ∈ batch, operation.action.IsReadable := by
  cases request with
  | cancel => cases brings
  | step number recovery shard command =>
      cases command with
      | replay operations totalOps =>
          cases brings
          exact readable.2.1.2
      | _ => cases brings

namespace Sending

variable {sender : Sender}

theorem start_proceed_completing (stage : sender.delivery.stage = .completing)
    (request : Request) :
    (proceed request .ack).start sender =
      (do closeFiles; sendOperations; return none : Sending (Option Int64)).start sender := by
  rw [proceed, start_bind_of_ok (rfl : (get : Sending Sender).start sender = (.ok sender, sender))]
  dsimp only
  rw [stage]

theorem start_proceed_replaying {batch : List Operation} {rest : Batches}
    (stage : sender.delivery.stage = .replaying batch rest) (request : Request) (reply : Reply) :
    (proceed request reply).start sender =
      (do acceptBatch batch reply; sendBatch rest; return none :
        Sending (Option Int64)).start sender := by
  rw [proceed, start_bind_of_ok (rfl : (get : Sending Sender).start sender = (.ok sender, sender))]
  dsimp only
  rw [stage]

end Sending

namespace Sender

/-- A session may go on with its history: it has nothing to wait for, and nobody has asked
it to stop. -/
structure Ready (sender : Sender) : Prop where
  unasked : sender.delivery.session.cancellation.reason? = none
  inOps : sender.delivery.session.progress.phase = .ops
  idle : sender.delivery.outstanding = []

/-- One request is outstanding, and it brings these operations or none. -/
def Asks (sender : Sender) (batch? : Option (List Operation)) : Prop :=
  ∃ sent, sender.delivery.outstanding = [sent] ∧ sent.request.batch? = batch?

/-- The failure of a session to send operations that are not there. -/
def departure (sender : Sender) (gap : Gap) : Error :=
  ((Error.sequenceGap gap.expected gap.actual).inContext sender.delivery.session.recovery
    sender.delivery.session.shard).inPhase .ops

/-- What a session waits for when the given batches are left. -/
inductive Awaits (sender : Sender) : Batches → Prop where
  | batch {batch : List Operation} {batches : List (List Operation)} {gap? : Option Gap}
      (unasked : sender.delivery.session.cancellation.reason? = none)
      (inOps : sender.delivery.session.progress.phase = .ops)
      (stage : sender.delivery.stage = .replaying batch { batches, gap? })
      (asks : sender.Asks (some batch)) :
      Awaits sender { batches := batch :: batches, gap? }
  | gap {gap : Gap} (stage : sender.delivery.stage = .cancelling (sender.departure gap))
      (asks : sender.Asks none) : Awaits sender { batches := [], gap? := some gap }
  | finalizing (stage : sender.delivery.stage = .finalizing) (asks : sender.Asks none) :
      Awaits sender { batches := [], gap? := none }

theorem session_failScope (sender : Sender) (error : Error) :
    (sender.failScope error).delivery.session = sender.delivery.session := by
  unfold failScope
  split <;> rfl

theorem awaits_of_ensures {step : Sending (Option Int64)} {rest : Batches} {sender : Sender}
    (ensures : Sending.Ensures (fun _ => False) step
      (fun result after => result = none ∧
        after.delivery.session.cancellation.reason? = none ∧ after.Awaits rest) sender) :
    (settle (step.start sender)).Awaits rest := by
  obtain ⟨result, after, ran, rfl, unasked, awaits⟩ := ensures.ok
  rw [ran, settle, Cancellation.check, unasked]
  exact awaits

/-- The next batch is sent; behind the last one the session fails at the gap, or asks to
finish. -/
theorem Ready.awaits {sender : Sender} (ready : sender.Ready) (rest : Batches) :
    (settle ((do Sending.sendBatch rest; return none : Sending (Option Int64)).start
      sender)).Awaits rest := by
  obtain ⟨batches, gap?⟩ := rest
  cases batches with
  | cons batch batches =>
      apply awaits_of_ensures
      simp only [Sending.sendBatch, Sending.ensures_bind, Sending.ensures_checkCancelled,
        Sending.ensures_get, Sending.ensures_request, Sending.ensures_setStage,
        Sending.ensures_send, Sending.ensures_pure, Cancellation.check, ready.unasked, true_and]
      exact .batch ready.unasked ready.inOps rfl
        ⟨_, congrArg (· ++ [_]) ready.idle, rfl⟩
  | nil =>
      cases gap? with
      | some gap =>
          change (sender.fail (.sequenceGap gap.expected gap.actual)).Awaits _
          refine .gap (congrArg Stage.cancelling ?_) ⟨_, rfl, rfl⟩
          have same : (sender.fail (.sequenceGap gap.expected gap.actual)).departure gap =
              sender.departure gap := by
            rw [departure, departure, fail]
            dsimp only
            rw [session_failScope]
          rw [same, locate, session_failScope, ready.inOps]
          rfl
      | none =>
          apply awaits_of_ensures
          simp only [Sending.sendBatch, Sending.ensures_bind, Sending.ensures_get]
          apply Sending.ensures_closeScope
          intro journal scope?
          simp only [Sending.sendFinalize, Sending.ensures_bind, Sending.ensures_transition,
            Sending.ensures_openScope, Sending.ensures_get, Sending.ensures_request,
            Sending.ensures_setStage, Sending.ensures_send, Sending.ensures_pure, true_and]
          rw [if_pos (by rw [ready.inOps]; rfl)]
          exact ⟨ready.unasked, .finalizing rfl ⟨_, congrArg (· ++ [_]) ready.idle, rfl⟩⟩

/-- The end of the files has been acknowledged: the history follows. -/
theorem awaits_of_completing {sender : Sender} {sent : Outstanding}
    (stage : sender.delivery.stage = .completing)
    (inFiles : sender.delivery.session.progress.phase = .files)
    (unasked : sender.delivery.session.cancellation.reason? = none)
    (asked : sender.delivery.outstanding = [sent]) :
    (sender.receive 0 (.ok .ack)).Awaits sender.delivery.agenda.batches := by
  let opening : Sending Unit := do
    Sending.closeFiles
    Sending.transition .ops
    Sending.openScope "RECOVERY_OPS"
  have opens : Sending.Ensures (fun _ => False) opening
      (fun _ after => after.Ready ∧ after.delivery.agenda = sender.delivery.agenda)
      (sender.without 0) := by
    simp only [opening, Sending.closeFiles, Sending.ensures_bind, Sending.ensures_get]
    apply Sending.ensures_closeScope
    intro journal scope?
    simp only [Sending.ensures_transition, Sending.ensures_openScope]
    rw [if_pos (by rw [without, inFiles]; rfl)]
    refine ⟨⟨unasked, rfl, ?_⟩, rfl⟩
    simp [without, asked]
  obtain ⟨_, opened, ran, ready, same⟩ := opens.ok
  have going : sender.isCancelling = false := by
    rw [isCancelling, stage]
  have completing : (sender.without 0).delivery.stage = .completing := stage
  have steps : (do Sending.closeFiles; Sending.sendOperations; return none) = (do
      opening
      Sending.sendBatch (← get).delivery.agenda.batches
      return none : Sending (Option Int64)) := by
    simp only [opening, Sending.sendOperations, bind_assoc]
  rw [receive_eq (by rw [asked]; rfl) going]
  dsimp only
  rw [Sending.start_proceed_completing completing, steps, Sending.start_bind_of_ok ran, ← same]
  exact ready.awaits _

/-- A batch has been acknowledged: the next one follows. -/
theorem Awaits.receive {sender : Sender} {batch : List Operation}
    {batches : List (List Operation)} {gap? : Option Gap} {checkpoint : Int64}
    (awaits : sender.Awaits { batches := batch :: batches, gap? })
    (reaches : (batch.getLast?.map (·.seqNo)).getD noOperations ≤ checkpoint) :
    (sender.receive 0 (.ok (.opsAck checkpoint))).Awaits { batches, gap? } := by
  cases awaits with
  | batch unasked inOps stage asks =>
      obtain ⟨sent, asked, _⟩ := asks
      have accepts : Sending.Ensures (fun _ => False)
          (Sending.acceptBatch batch (.opsAck checkpoint)) (fun _ after => after.Ready)
          (sender.without 0) := by
        simp only [Sending.acceptBatch, Int64.not_lt.mpr reaches, if_false,
          Sending.ensures_modifyProgress]
        refine ⟨unasked, inOps, ?_⟩
        simp [without, asked]
      obtain ⟨_, accepted, ran, ready⟩ := accepts.ok
      have going : sender.isCancelling = false := by
        rw [isCancelling, stage]
      have replaying : (sender.without 0).delivery.stage = .replaying batch { batches, gap? } :=
        stage
      rw [receive_eq (by rw [asked]; rfl) going]
      dsimp only
      rw [Sending.start_proceed_replaying replaying, Sending.start_bind_of_ok ran]
      exact ready.awaits _

/-- The session has sent these batches one after the other, and a target has acknowledged
each. -/
inductive Replays : Sender → List (List Operation) → Sender → Prop where
  | none (sender : Sender) : Replays sender [] sender
  | batch {sender after : Sender} {sent : Outstanding} {batch : List Operation}
      {batches : List (List Operation)} {service : Service} {checkpoint : Int64}
      (asked : sender.delivery.outstanding = [sent])
      (brings : sent.request.batch? = some batch)
      (answered : (service.respond sent.request).1 = .ok (.opsAck checkpoint))
      (reaches : (batch.getLast?.map (·.seqNo)).getD noOperations ≤ checkpoint)
      (later : Replays (sender.receive 0 (.ok (.opsAck checkpoint))) batches after) :
      Replays sender (batch :: batches) after

/-- What is left of a history when some of its batches have been acknowledged. -/
theorem Replays.left {sender after : Sender} {batches : List (List Operation)} {rest : Batches}
    (replays : sender.Replays batches after) (awaits : sender.Awaits rest) :
    (∀ batch ∈ batches, ∀ operation ∈ batch, operation.action.IsReadable) ∧
      ∃ left, rest.batches = batches ++ left ∧
        after.Awaits { batches := left, gap? := rest.gap? } := by
  induction replays generalizing rest with
  | none sender => exact ⟨by simp, rest.batches, rfl, awaits⟩
  | @batch sender after sent batch batches service checkpoint asked brings answered reaches later
      ih =>
      have readable := Request.operations_readable (Service.readable_of_respond answered) brings
      have awaited {batch? : Option (List Operation)} (asks : sender.Asks batch?) :
          batch? = some batch := by
        obtain ⟨other, askedToo, brought⟩ := asks
        cases asked.symm.trans askedToo
        exact brought.symm.trans brings
      cases awaits with
      | batch unasked inOps stage asks =>
          cases awaited asks
          obtain ⟨readableToo, left, divided, still⟩ :=
            ih (Awaits.receive (.batch unasked inOps stage asks) reaches)
          exact ⟨List.forall_mem_cons.mpr ⟨readable, readableToo⟩, left,
            congrArg (batch :: ·) divided, still⟩
      | gap _ asks | finalizing _ asks => cases awaited asks

/-- How a session that has been able to send all that it could of a history goes on. -/
structure Concludes (after : Sender) (start : Int) (operations : List Operation)
    (batches : List (List Operation)) : Prop where
  whole : Contiguous start operations →
    batches.flatten = operations ∧ after.delivery.stage = .finalizing
  departing : ∀ (index : Nat) (operation : Operation), operations[index]? = some operation →
    Contiguous start (operations.take index) → operation.seqNo.toInt ≠ start + index →
    batches.flatten <+: operations.take index ∧
      after.delivery.stage = .cancelling
        (after.departure { expected := start + index, actual := operation.seqNo.toInt })

theorem Awaits.concludes {sender : Sender} {start : Int} {operations : List Operation}
    {settings : Settings}
    (awaits : sender.Awaits {
      batches := []
      gap? := (Batches.ofHistory settings start operations).gap? }) :
    sender.Concludes start operations (Batches.ofHistory settings start operations).batches := by
  constructor
  · intro contiguous
    obtain ⟨whole, flat⟩ := Batches.divide_of_contiguous settings [] 0 contiguous
    rw [Batches.ofHistory, whole] at awaits
    cases awaits with
    | finalizing stage => exact ⟨flat, stage⟩
  · intro index operation found contiguous departs
    obtain ⟨inside, rfl⟩ := List.getElem?_eq_some_iff.mp found
    have length : (operations.take index).length = index :=
      List.length_take_of_le (Nat.le_of_lt inside)
    have split : operations =
        operations.take index ++ operations[index] :: operations.drop (index + 1) := by
      rw [← List.drop_eq_getElem_cons inside, List.take_append_drop]
    obtain ⟨gap, before⟩ := Batches.divide_of_departing settings [] 0 contiguous
      (by rwa [length]) (operations.drop (index + 1))
    rw [← split] at gap before
    rw [length] at gap
    rw [Batches.ofHistory, gap] at awaits
    cases awaits with
    | gap stage => exact ⟨before, stage⟩

/-- A session that has sent all files sends a history in batches within the limits, and
together they are the history, or a part of it before its first gap. -/
theorem replays_history {sender after : Sender} {sent : Outstanding} {start : Int}
    {operations : List Operation} {batches : List (List Operation)}
    (completing : sender.delivery.stage = .completing)
    (inFiles : sender.delivery.session.progress.phase = .files)
    (unasked : sender.delivery.session.cancellation.reason? = none)
    (asked : sender.delivery.outstanding = [sent])
    (captured : sender.delivery.agenda.batches =
      .ofHistory sender.delivery.settings start operations)
    (positive : 1 ≤ sender.delivery.settings.batchOperations)
    (replays : (sender.receive 0 (.ok .ack)).Replays batches after) :
    (∀ batch ∈ batches, batch ≠ [] ∧
      batch.length ≤ sender.delivery.settings.batchOperations ∧
      ((batch.flatMap Operation.write).length ≤ sender.delivery.settings.batchBytes ∨
        batch.length = 1)) ∧
    batches.flatten <+: operations ∧
    ((∃ batch, after.Asks (some batch)) ∨ after.Concludes start operations batches) := by
  have awaits := awaits_of_completing completing inFiles unasked asked
  rw [captured] at awaits
  obtain ⟨readable, left, divided, still⟩ := replays.left awaits
  refine ⟨fun batch member => ?_, ?_, ?_⟩
  · have suits : Batches.Suits sender.delivery.settings batch :=
      Batches.suits_divide (.inl rfl) batch
        (show batch ∈ (Batches.ofHistory _ start operations).batches by
          rw [divided]
          exact List.mem_append_left _ member)
    refine ⟨suits.filled, ?_, suits.small.symm.imp_left ?_⟩
    · exact Nat.le_trans suits.few (Nat.max_le.mpr ⟨positive, Nat.le_refl _⟩)
    · exact Nat.le_trans (Batches.length_flatMap_write_le (readable batch member))
  · have flat : (Batches.ofHistory sender.delivery.settings start operations).batches.flatten <+:
        operations := Batches.flatten_divide
    rw [divided, List.flatten_append] at flat
    exact (List.prefix_append _ _).trans flat
  · cases left with
    | nil =>
        rw [List.append_nil] at divided
        rw [← divided]
        exact .inr still.concludes
    | cons batch left =>
        cases still with
        | batch _ _ _ asks => exact .inl ⟨batch, asks⟩

/-- A history with a gap behind its second operation. -/
def interrupted : List Operation := [
  { seqNo := 0, primaryTerm := 1, action := .index "a" 1 [0x7B, 0x7D] },
  { seqNo := 1, primaryTerm := 1, action := .delete "a" 2 },
  { seqNo := 3, primaryTerm := 1, action := .noOp "end" }]

/-- A session that is to send it, one operation at a time, and has sent all files. -/
def sendingInterrupted : Sender where
  delivery := {
    session := {
      recovery := 1, shard := default, source := Watched.receivingNode
      target := Watched.receivingNode, startSeqNo := 0, progress := { phase := .files } }
    settings := { batchOperations := 1 }
    start := {
      recovery := 1, shard := default, source := Watched.receivingNode
      target := Watched.receivingNode, files := [], startSeqNo := 0 }
    stage := .completing
    agenda := {
      totalOps := 3, batches := .ofHistory { batchOperations := 1 } 0 interrupted }
    outstanding := [{ request := .step 0 1 default (.filesComplete 0 3), timeout := 0 }] }
  source := {}

/-- The target when it has acknowledged the end of the files. -/
def receivingInterrupted : Service :=
  let announcement : Announcement :=
    { names := [], sizes := [], existingNames := [], existingSizes := [] }
  let service := ((Dialogue.recovering 0 default {}).respond
    (.step 0 1 default (.announce announcement 3))).2
  (service.respond (.step 0 1 default (.filesComplete 0 3))).2

/-- What the session asks first. -/
def firstAsked : Outstanding where
  request := .step 0 1 default (.replay (interrupted.take 1) 3)
  timeout := ({} : Settings).timeout

theorem replays_history_interrupted :
    let asking := sendingInterrupted.receive 0 (.ok .ack)
    let after := asking.receive 0 (.ok (.opsAck 0))
    asking.Replays [interrupted.take 1] after ∧
      after.delivery.stage = .cancelling (after.departure { expected := 2, actual := 3 }) := by
  intro asking after
  have replays : asking.Replays [interrupted.take 1] after := by
    have asked : asking.delivery.outstanding = [firstAsked] := by decide +kernel
    have answered : (receivingInterrupted.respond firstAsked.request).1 = .ok (.opsAck 0) :=
      eq_ok_of_toOption (by decide +kernel)
    exact .batch asked rfl answered (by decide) (.none after)
  have captured : sendingInterrupted.delivery.agenda.batches =
      .ofHistory sendingInterrupted.delivery.settings 0 interrupted := rfl
  obtain ⟨_, _, outcome⟩ :=
    replays_history rfl rfl rfl rfl captured (by decide) replays
  have told : after.delivery.outstanding.map (·.request.batch?) = [none] := by decide +kernel
  have concludes : after.Concludes 0 interrupted [interrupted.take 1] := by
    refine outcome.resolve_left ?_
    rintro ⟨batch, sent, asked, brings⟩
    rw [asked] at told
    simp [brings] at told
  have contiguous : Contiguous 0 (interrupted.take 2) :=
    contiguous_cons.mpr ⟨by decide, contiguous_cons.mpr ⟨by decide, by simp [Contiguous]⟩⟩
  exact ⟨replays, (concludes.departing 2 _ rfl contiguous (by decide)).2⟩

end Sender

end ShardSync.Recovery
