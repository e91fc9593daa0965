import ShardSync.Proofs.Recovery.Sending
import ShardSync.Proofs.Store.Listing

/-!
# What a session has to send

The request that started a session and the source at that moment settle all that
the session may ever send. The main statements say that the steps of a session
keep to that, whatever they are answered.
-/

set_option autoImplicit false

namespace ShardSync

/-- Pinning files does not change what is listed. -/
theorem Store.liveFiles_congr {store other : Store} (same : store.files = other.files) :
    store.liveFiles = other.liveFiles := by
  obtain ⟨files, pins⟩ := store
  obtain ⟨otherFiles, otherPins⟩ := other
  cases same
  rfl

namespace Recovery

theorem Piece.chunk_congr {store other : Store} (same : store.files = other.files)
    (piece : Piece) : piece.chunk store = piece.chunk other := by
  obtain ⟨files, pins⟩ := store
  obtain ⟨otherFiles, otherPins⟩ := other
  cases same
  rfl

/-- What a session never changes. -/
structure Mandate where
  start : StartRequest
  settings : Settings
  recovery : Int64
  shard : ShardId
  startSeqNo : Int64
  files : Std.ExtTreeMap String Content
  translog : Translog

def Sender.mandate (sender : Sender) : Mandate where
  start := sender.delivery.start
  settings := sender.delivery.settings
  recovery := sender.delivery.session.recovery
  shard := sender.delivery.session.shard
  startSeqNo := sender.delivery.session.startSeqNo
  files := sender.source.store.files
  translog := sender.source.translog

/-- What has to be sent depends on the mandate alone. -/
theorem Sending.plan_congr {sender other : Sender} (same : sender.mandate = other.mandate)
    (files : List FileMetadata) : plan sender files = plan other files := by
  simp only [Sender.mandate, Mandate.mk.injEq] at same
  obtain ⟨start, settings, _, _, startSeqNo, _, translog⟩ := same
  simp only [plan, start, settings, startSeqNo, translog]

/-- The session whose turn has come, before its first step. -/
def Sender.begun (sender : Sender) : Sender :=
  ({ sender with delivery.isLaunched := true }.count fun metrics =>
    { metrics with recoveriesStarted := metrics.recoveriesStarted + 1 }).log .recoveryBegin []

theorem Sender.launch_of_planned {sender : Sender} {snapshot : Snapshot} {store : Store}
    {agenda : Agenda} (queued : sender.delivery.stage = .queued)
    (unasked : sender.delivery.session.cancellation.reason? = none)
    (taken : sender.source.store.takeSnapshot = .ok (snapshot, store))
    (planned : Sending.plan sender snapshot.files = .ok agenda) :
    sender.launch =
      settle ((do Sending.sendFiles; return none : Sending (Option Int64)).start
        { sender.begun with
          source.store := store
          delivery.snapshot? := some snapshot
          delivery.agenda := agenda }) := by
  have check : sender.delivery.session.cancellation.check = .ok () := by
    rw [Cancellation.check, unasked]
  have planned : Sending.plan { sender.begun with
      source.store := store
      delivery.snapshot? := some snapshot } snapshot.files = .ok agenda := by
    rw [← planned]
    refine Sending.plan_congr ?_ _
    obtain ⟨_, _, rfl⟩ := Store.takeSnapshot_eq_ok_iff.1 taken
    rfl
  unfold launch
  rw [queued, check]
  change settle ((do Sending.begin; return none : Sending (Option Int64)).start sender.begun) = _
  rw [Sending.start_bind, Sending.start_bind, Sending.start_begin _ _ planned]
  · exact unasked
  · exact taken

/-- The start of a session: the target's request, and the source it is made to. -/
structure Script where
  start : StartRequest
  settings : Settings
  source : SourceShard

def Agenda.announcement (agenda : Agenda) : Announcement where
  names := agenda.inventory.toSend.map (·.name)
  sizes := agenda.inventory.toSend.map (·.length)
  existingNames := agenda.inventory.alreadyPresent.map (·.name)
  existingSizes := agenda.inventory.alreadyPresent.map (·.length)

namespace Script

/-- The session before its turn. -/
def opened (script : Script) : Sender where
  delivery := .ofStart script.start script.settings
  source := script.source

/-- What has to be sent. There is none if the source cannot be listed, or its
history is too long. -/
def agenda? (script : Script) : Option Agenda :=
  script.source.store.liveFiles.toOption.bind fun files =>
    (Sending.plan script.opened files).toOption

def pieces (script : Script) (agenda : Agenda) : List Piece :=
  agenda.inventory.toSend.flatMap (Piece.cut script.settings.chunkSize)

inductive Permits (script : Script) (agenda : Agenda) : Command → Prop where
  | announce : Permits script agenda (.announce agenda.announcement agenda.totalOps)
  | transfer {piece : Piece} {chunk : Chunk} (member : piece ∈ script.pieces agenda)
      (cut : piece.chunk script.source.store = .ok chunk) :
      Permits script agenda (.transfer chunk agenda.totalOps)
  | filesComplete : Permits script agenda (.filesComplete script.start.startSeqNo agenda.totalOps)
  | replay {batch : List Operation} (member : batch ∈ agenda.batches.batches) :
      Permits script agenda (.replay batch agenda.totalOps)
  /-- A history with a gap is not finalized. -/
  | finalize (whole : agenda.batches.gap? = none) :
      Permits script agenda (.finalize (.ofInt agenda.globalCheckpoint))

/-- The requests that the session may send. -/
inductive Allows (script : Script) : Request → Prop where
  | step {number : Int64} {agenda : Agenda} {command : Command}
      (planned : script.agenda? = some agenda) (permitted : script.Permits agenda command) :
      Allows script (.step number script.start.recovery script.start.shard command)
  | cancel {reason : String} :
      Allows script (.cancel script.start.recovery script.start.shard reason)

end Script

/-- Whether a request moves the recovery on without ending it. -/
def Request.isOrdinary : Request → Bool
  | .step _ _ _ (.finalize _) | .cancel _ _ _ => false
  | _ => true

namespace Sender

/-- A session that is going on. It may fail at any time. -/
structure Engaged (script : Script) (sender : Sender) : Prop where
  serves : sender.mandate = script.opened.mandate
  going : sender.delivery.session.progress.isTerminal = false

/-- A session that knows what it has to send, and has not asked to finish. -/
structure Busy (script : Script) (agenda : Agenda) (sender : Sender) : Prop
    extends sender.Engaged script where
  planned : script.agenda? = some agenda
  agenda : sender.delivery.agenda = agenda
  ordinary : ∀ sent ∈ sender.delivery.outstanding,
    script.Allows sent.request ∧ sent.request.isOrdinary = true

/-- At every stage a session waits for answers to requests that it may send, and
what it goes on to send is what has to be sent. -/
inductive Fits (script : Script) (sender : Sender) : Prop where
  | queued (engaged : sender.Engaged script) (stage : sender.delivery.stage = .queued)
      (idle : sender.delivery.outstanding = [])
  | announcing {agenda : Agenda} (busy : sender.Busy script agenda)
      (stage : sender.delivery.stage = .announcing)
      (single : sender.delivery.outstanding.length ≤ 1)
  | sending {agenda : Agenda} {ready? : Option Request} {pieces : List Piece}
      (busy : sender.Busy script agenda) (stage : sender.delivery.stage = .sending ready? pieces)
      (ready : ∀ request ∈ ready?, script.Allows request ∧ request.isOrdinary = true)
      (cut : ∀ piece ∈ pieces, piece ∈ script.pieces agenda)
  | completing {agenda : Agenda} (busy : sender.Busy script agenda)
      (stage : sender.delivery.stage = .completing)
      (single : sender.delivery.outstanding.length ≤ 1)
  | replaying {agenda : Agenda} {batch : List Operation} {rest : Batches}
      (busy : sender.Busy script agenda) (stage : sender.delivery.stage = .replaying batch rest)
      (single : sender.delivery.outstanding.length ≤ 1)
      (divided : ∀ batch ∈ rest.batches, batch ∈ agenda.batches.batches)
      (gap : rest.gap? = agenda.batches.gap?)
  | finalizing {agenda : Agenda} (engaged : sender.Engaged script)
      (planned : script.agenda? = some agenda)
      (same : sender.delivery.agenda = agenda) (whole : agenda.batches.gap? = none)
      (phase : sender.delivery.session.progress.phase = .finalize)
      (stage : sender.delivery.stage = .finalizing)
      (asked : ∃ number timeout, sender.delivery.outstanding = [{
        request := .step number script.start.recovery script.start.shard
          (.finalize (.ofInt agenda.globalCheckpoint))
        timeout }])
  | cancelling {error : Error} (serves : sender.mandate = script.opened.mandate)
      (phase : sender.delivery.session.progress.phase = .failed)
      (stage : sender.delivery.stage = .cancelling error)
      (asked : ∃ timeout, sender.delivery.outstanding = [{
        request := .cancel script.start.recovery script.start.shard error.detail
        timeout }])
  | failed {error : Error} (serves : sender.mandate = script.opened.mandate)
      (phase : sender.delivery.session.progress.phase = .failed)
      (stage : sender.delivery.stage = .ended (.error error))
      (idle : sender.delivery.outstanding = [])
  | done {agenda : Agenda} {checkpoint : Int64} (serves : sender.mandate = script.opened.mandate)
      (planned : script.agenda? = some agenda) (same : sender.delivery.agenda = agenda)
      (whole : agenda.batches.gap? = none)
      (phase : sender.delivery.session.progress.phase = .done)
      (stage : sender.delivery.stage = .ended (.ok checkpoint))
      (idle : sender.delivery.outstanding = [])

end Sender

namespace Sending

variable {script : Script} {agenda : Agenda} {sender : Sender}

/-- The session is at a stage that its script knows, and waits for an answer. -/
def Proceeds (script : Script) (after : Sender) : Prop :=
  after.Fits script ∧ after.delivery.isWaiting = true

/-- The names that a session puts on its requests. -/
theorem ids_of_engaged (engaged : sender.Engaged script) :
    sender.delivery.session.recovery = script.start.recovery ∧
      sender.delivery.session.shard = script.start.shard :=
  ⟨congrArg Mandate.recovery engaged.serves, congrArg Mandate.shard engaged.serves⟩

theorem ensures_sendFinalize (busy : sender.Busy script agenda)
    (idle : sender.delivery.outstanding = []) (whole : agenda.batches.gap? = none) :
    Ensures (Sender.Engaged script) sendFinalize (fun _ => Proceeds script) sender := by
  obtain ⟨recovery, shard⟩ := ids_of_engaged busy.toEngaged
  simp only [sendFinalize, ensures_bind, ensures_transition, ensures_openScope, ensures_get,
    ensures_request, ensures_setStage, ensures_send]
  split
  · refine ⟨.finalizing ⟨busy.serves, rfl⟩ busy.planned busy.agenda whole rfl rfl ?_, rfl⟩
    refine ⟨.ofNat sender.delivery.session.numbered, sender.delivery.settings.longTimeout, ?_⟩
    simp only [idle, recovery, shard, busy.agenda, List.nil_append]
  · exact busy.toEngaged

theorem ensures_sendBatch {rest : Batches} (busy : sender.Busy script agenda)
    (idle : sender.delivery.outstanding = [])
    (divided : ∀ batch ∈ rest.batches, batch ∈ agenda.batches.batches)
    (gap : rest.gap? = agenda.batches.gap?) :
    Ensures (Sender.Engaged script) (sendBatch rest) (fun _ => Proceeds script) sender := by
  obtain ⟨recovery, shard⟩ := ids_of_engaged busy.toEngaged
  unfold sendBatch
  split
  · next batch batches listed =>
      rw [listed, List.forall_mem_cons] at divided
      simp only [ensures_bind, ensures_checkCancelled, ensures_get, ensures_request,
        ensures_setStage, ensures_send]
      split
      · refine ⟨.replaying ⟨⟨busy.serves, busy.going⟩, busy.planned, busy.agenda, ?_⟩ rfl ?_
          divided.2 gap, rfl⟩
        · refine List.forall_mem_append.mpr ⟨busy.ordinary, List.forall_mem_singleton.mpr ?_⟩
          rw [recovery, shard, busy.agenda]
          exact ⟨.step busy.planned (.replay divided.1), rfl⟩
        · simp [idle]
      · exact busy.toEngaged
  · split
    · exact busy.toEngaged
    · next whole =>
        simp only [ensures_bind, ensures_get]
        apply ensures_closeScope
        intro journal scope?
        have still : Sender.Busy script agenda
            { sender with journal, delivery.scope? := scope? } :=
          ⟨⟨busy.serves, busy.going⟩, busy.planned, busy.agenda, busy.ordinary⟩
        exact ensures_sendFinalize still idle (gap ▸ whole)

theorem ensures_sendOperations (busy : sender.Busy script agenda)
    (idle : sender.delivery.outstanding = []) :
    Ensures (Sender.Engaged script) sendOperations (fun _ => Proceeds script) sender := by
  simp only [sendOperations, ensures_bind, ensures_transition, ensures_openScope, ensures_get]
  split
  · refine ensures_sendBatch ⟨⟨busy.serves, rfl⟩, busy.planned, busy.agenda, busy.ordinary⟩ idle
      ?_ ?_
    · rw [busy.agenda]
      exact fun _ member => member
    · rw [← busy.agenda]
  · exact busy.toEngaged

theorem ensures_sendFilesComplete (busy : sender.Busy script agenda)
    (idle : sender.delivery.outstanding = []) :
    Ensures (Sender.Engaged script) sendFilesComplete (fun _ => Proceeds script) sender := by
  obtain ⟨recovery, shard⟩ := ids_of_engaged busy.toEngaged
  have startSeqNo := congrArg Mandate.startSeqNo busy.serves
  dsimp only [Sender.mandate, Script.opened, Delivery.ofStart, Session.ofStart] at startSeqNo
  simp only [sendFilesComplete, ensures_bind, ensures_get, ensures_request, ensures_setStage,
    ensures_send]
  refine ⟨.completing ⟨⟨busy.serves, busy.going⟩, busy.planned, busy.agenda, ?_⟩ rfl ?_, rfl⟩
  · refine List.forall_mem_append.mpr ⟨busy.ordinary, List.forall_mem_singleton.mpr ?_⟩
    rw [recovery, shard, startSeqNo, busy.agenda]
    exact ⟨.step busy.planned .filesComplete, rfl⟩
  · simp [idle]

theorem ensures_sendPieces {pieces : List Piece} (busy : sender.Busy script agenda)
    (cut : ∀ piece ∈ pieces, piece ∈ script.pieces agenda) :
    Ensures (Sender.Engaged script) (sendPieces pieces) (fun _ => Proceeds script) sender := by
  induction pieces generalizing sender with
  | nil =>
      simp only [sendPieces, ensures_bind, ensures_get]
      split
      · next idle => exact ensures_sendFilesComplete busy (List.isEmpty_iff.mp idle)
      · rw [ensures_setStage]
        refine ⟨.sending ⟨⟨busy.serves, busy.going⟩, busy.planned, busy.agenda, busy.ordinary⟩
          rfl ?_ cut, rfl⟩
        simp
  | cons piece pieces ih =>
      rw [List.forall_mem_cons] at cut
      obtain ⟨recovery, shard⟩ := ids_of_engaged busy.toEngaged
      have files := congrArg Mandate.files busy.serves
      simp only [sendPieces, ensures_bind, ensures_checkCancelled, ensures_get, ensures_check,
        ensures_request]
      rw [Piece.chunk_congr files]
      split
      · cases made : piece.chunk script.opened.source.store with
        | error error => exact busy.toEngaged
        | ok chunk =>
            have next (number : Int64) :
                script.Allows (.step number sender.delivery.session.recovery
                    sender.delivery.session.shard
                    (.transfer chunk sender.delivery.agenda.totalOps)) ∧
                  Request.isOrdinary (.step number sender.delivery.session.recovery
                    sender.delivery.session.shard
                    (.transfer chunk sender.delivery.agenda.totalOps)) = true := by
              rw [recovery, shard, busy.agenda]
              exact ⟨.step busy.planned (.transfer cut.1 made), rfl⟩
            dsimp only [Except.mapError]
            split
            · rw [ensures_bind, ensures_send]
              refine ih ⟨⟨busy.serves, busy.going⟩, busy.planned, busy.agenda, ?_⟩ cut.2
              exact List.forall_mem_append.mpr
                ⟨busy.ordinary, List.forall_mem_singleton.mpr (next _)⟩
            · rw [ensures_setStage]
              refine ⟨.sending ⟨⟨busy.serves, busy.going⟩, busy.planned, busy.agenda,
                busy.ordinary⟩ rfl ?_ cut.2, rfl⟩
              intro request ready
              cases ready
              exact next _
      · exact busy.toEngaged

theorem ensures_resumePieces {ready? : Option Request} {pieces : List Piece}
    (busy : sender.Busy script agenda)
    (ready : ∀ request ∈ ready?, script.Allows request ∧ request.isOrdinary = true)
    (cut : ∀ piece ∈ pieces, piece ∈ script.pieces agenda) :
    Ensures (Sender.Engaged script) (resumePieces ready? pieces) (fun _ => Proceeds script)
      sender := by
  unfold resumePieces
  cases ready? with
  | none => exact ensures_sendPieces busy cut
  | some request =>
      simp only [ensures_bind, ensures_get, ensures_send]
      refine ensures_sendPieces ⟨⟨busy.serves, busy.going⟩, busy.planned, busy.agenda, ?_⟩ cut
      exact List.forall_mem_append.mpr
        ⟨busy.ordinary, List.forall_mem_singleton.mpr (ready request rfl)⟩

theorem ensures_sendFiles (busy : sender.Busy script agenda)
    (idle : sender.delivery.outstanding = []) :
    Ensures (Sender.Engaged script) sendFiles (fun _ => Proceeds script) sender := by
  obtain ⟨recovery, shard⟩ := ids_of_engaged busy.toEngaged
  simp only [sendFiles, ensures_bind, ensures_transition, ensures_openScope, ensures_get,
    ensures_modifyProgress, ensures_count, ensures_request, ensures_setStage, ensures_send]
  split
  · refine ⟨.announcing ⟨⟨busy.serves, rfl⟩, busy.planned, busy.agenda, ?_⟩ rfl ?_, rfl⟩
    · refine List.forall_mem_append.mpr ⟨busy.ordinary, List.forall_mem_singleton.mpr ?_⟩
      rw [recovery, shard, busy.agenda]
      exact ⟨.step busy.planned .announce, rfl⟩
    · simp [idle]
  · exact busy.toEngaged

/-- A session that has its turn plans what it has to send. -/
theorem ensures_begin (engaged : sender.Engaged script)
    (idle : sender.delivery.outstanding = []) :
    Ensures (Sender.Engaged script) begin (fun _ => Proceeds script) sender := by
  have files : sender.source.store.files = script.source.store.files :=
    congrArg Mandate.files engaged.serves
  simp only [begin, pinFiles, ensures_bind, ensures_get, ensures_check, ensures_modify,
    ensures_modifyDelivery, ensures_checkCancelled, ensures_pure]
  cases taken : sender.source.store.takeSnapshot with
  | error error => exact engaged
  | ok pinned =>
      obtain ⟨snapshot, store⟩ := pinned
      obtain ⟨listed, same⟩ := Store.takeSnapshot_eq_ok_iff.mp taken
      have still : Sender.Engaged script { sender with
          source.store := store, delivery.snapshot? := some snapshot } := by
        refine ⟨?_, engaged.going⟩
        rw [same]
        exact engaged.serves
      dsimp only [Except.mapError]
      split
      · rw [plan_congr still.serves]
        cases planned : plan script.opened snapshot.files with
        | error error => exact still
        | ok agenda =>
            refine ensures_sendFiles ⟨⟨still.serves, still.going⟩, ?_, rfl, ?_⟩ idle
            · rw [Script.agenda?, ← Store.liveFiles_congr files, listed]
              simp [Except.toOption, planned]
            · simp [idle]
      · exact still

/-- What a session keeps when it takes an answer and has not gone on yet. -/
def Keeping (script : Script) (agenda : Agenda) (before after : Sender) : Prop :=
  after.Busy script agenda ∧ after.delivery.outstanding = before.delivery.outstanding

theorem ensures_acceptChunk (busy : sender.Busy script agenda) (request : Request)
    (reply : Reply) :
    Ensures (Sender.Engaged script) (acceptChunk request reply)
      (fun _ => Keeping script agenda sender) sender := by
  unfold acceptChunk
  split
  · split
    · simp only [countChunk, ensures_bind, ensures_modifyProgress, ensures_count]
      exact ⟨⟨⟨busy.serves, busy.going⟩, busy.planned, busy.agenda, busy.ordinary⟩, rfl⟩
    · exact busy.toEngaged
  · exact busy.toEngaged

theorem ensures_acceptBatch (busy : sender.Busy script agenda) (batch : List Operation)
    (reply : Reply) :
    Ensures (Sender.Engaged script) (acceptBatch batch reply)
      (fun _ => Keeping script agenda sender) sender := by
  unfold acceptBatch
  dsimp only
  split
  · split
    · exact busy.toEngaged
    · exact ⟨⟨⟨busy.serves, busy.going⟩, busy.planned, busy.agenda, busy.ordinary⟩, rfl⟩
  · exact busy.toEngaged

theorem ensures_closeFiles (busy : sender.Busy script agenda) :
    Ensures (Sender.Engaged script) closeFiles (fun _ => Keeping script agenda sender)
      sender := by
  simp only [closeFiles, ensures_bind, ensures_get]
  apply ensures_closeScope
  intro journal scope?
  exact ⟨⟨⟨busy.serves, busy.going⟩, busy.planned, busy.agenda, busy.ordinary⟩, rfl⟩

end Sending

end Recovery

end ShardSync
