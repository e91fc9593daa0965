import ShardSync.Proofs.Recovery.Dialogue

/-!
# A session that is going on

Whatever a session is answered, and whatever becomes of its source meanwhile, it goes on
until it is done or fails. Until then it has not asked the target to give up, and the
steps that it takes change neither what it has pinned nor how many recoveries have been
counted.
-/

set_option autoImplicit false

namespace ShardSync.Recovery

/-- How many recoveries a node has counted, by what became of them. -/
structure Tally where
  started : Nat
  completed : Nat
  failed : Nat
  cancelled : Nat
deriving Repr, DecidableEq

def Log.tally (metrics : ShardSync.Log.Metrics) : Tally where
  started := metrics.recoveriesStarted
  completed := metrics.recoveriesCompleted
  failed := metrics.recoveriesFailed
  cancelled := metrics.recoveriesCancelled

/-- What the steps of a session leave alone once its files are pinned. -/
structure Basis where
  recovery : Int64
  shard : ShardId
  source : SourceShard
  snapshot? : Option Snapshot
  isLaunched : Bool
  tally : Tally

namespace Sender

def basis (sender : Sender) : Basis where
  recovery := sender.delivery.session.recovery
  shard := sender.delivery.session.shard
  source := sender.source
  snapshot? := sender.delivery.snapshot?
  isLaunched := sender.delivery.isLaunched
  tally := Log.tally sender.journal.metrics

def phase (sender : Sender) : Phase := sender.delivery.session.progress.phase

variable {holds : Basis → Prop} {sender : Sender}

/-- A session that has neither failed nor succeeded. -/
structure Underway (holds : Basis → Prop) (sender : Sender) : Prop where
  going : sender.delivery.session.progress.isTerminal = false
  calm : sender.delivery.session.progress.isCancelled = false
  ordinary : ∀ sent ∈ sender.delivery.outstanding, sent.request.isCancel = false
  basis : holds sender.basis

/-- A session that waits for an answer, or for room to send what it has ready. -/
structure Waits (holds : Basis → Prop) (sender : Sender) : Prop
    extends sender.Underway holds where
  waiting : sender.delivery.isWaiting = true
  ready : ∀ request pieces, sender.delivery.stage = .sending (some request) pieces →
    request.isCancel = false

/-- A session whose request to finish has been acknowledged. -/
structure Concluded (holds : Basis → Prop) (sender : Sender) : Prop where
  phase : sender.phase = .done
  calm : sender.delivery.session.progress.isCancelled = false
  basis : holds sender.basis

end Sender

namespace Sending

open Sender (Underway Waits Concluded)

variable {holds : Basis → Prop} {sender : Sender}

/-- Closing a scope writes a line at most. -/
theorem ensures_closeScope_metrics {fallen : Sender → Prop} {results : List (String × String)}
    {post : Unit → Sender → Prop}
    (every : ∀ journal scope?, journal.metrics = sender.journal.metrics →
      post () { sender with journal, delivery.scope? := scope? }) :
    Ensures fallen (closeScope results) post sender := by
  simp only [closeScope, ensures_bind, ensures_get]
  cases sender.delivery.scope? with
  | none => exact every sender.journal sender.delivery.scope? rfl
  | some scope =>
      obtain ⟨scope, opened⟩ := scope
      exact every _ none rfl

theorem ensures_sendFinalize_underway (underway : sender.Underway holds) :
    Ensures (Underway holds) sendFinalize (fun _ => Waits holds) sender := by
  simp only [sendFinalize, ensures_bind, ensures_transition, ensures_openScope, ensures_get,
    ensures_request, ensures_setStage, ensures_send]
  split
  · refine ⟨⟨rfl, underway.calm, ?_, underway.basis⟩, rfl,
      fun request pieces stage => by cases stage⟩
    exact List.forall_mem_append.mpr ⟨underway.ordinary, List.forall_mem_singleton.mpr rfl⟩
  · exact underway

theorem ensures_sendBatch_underway (underway : sender.Underway holds) (rest : Batches) :
    Ensures (Underway holds) (sendBatch rest) (fun _ => Waits holds) sender := by
  unfold sendBatch
  split
  · simp only [ensures_bind, ensures_checkCancelled, ensures_get, ensures_request,
      ensures_setStage, ensures_send]
    split
    · refine ⟨⟨underway.going, underway.calm, ?_, underway.basis⟩, rfl,
        fun request pieces stage => by cases stage⟩
      exact List.forall_mem_append.mpr ⟨underway.ordinary, List.forall_mem_singleton.mpr rfl⟩
    · exact underway
  · split
    · exact underway
    · simp only [ensures_bind, ensures_get]
      apply ensures_closeScope_metrics
      intro journal scope? same
      refine ensures_sendFinalize_underway ⟨underway.going, underway.calm, underway.ordinary, ?_⟩
      have basis := underway.basis
      unfold Sender.basis at basis ⊢
      rw [same]
      exact basis

theorem ensures_sendOperations_underway (underway : sender.Underway holds) :
    Ensures (Underway holds) sendOperations (fun _ => Waits holds) sender := by
  simp only [sendOperations, ensures_bind, ensures_transition, ensures_openScope, ensures_get]
  split
  · apply ensures_sendBatch_underway
    exact ⟨rfl, underway.calm, underway.ordinary, underway.basis⟩
  · exact underway

theorem ensures_sendFilesComplete_underway (underway : sender.Underway holds) :
    Ensures (Underway holds) sendFilesComplete (fun _ => Waits holds) sender := by
  simp only [sendFilesComplete, ensures_bind, ensures_get, ensures_request, ensures_setStage,
    ensures_send]
  refine ⟨⟨underway.going, underway.calm, ?_, underway.basis⟩, rfl,
    fun request pieces stage => by cases stage⟩
  exact List.forall_mem_append.mpr ⟨underway.ordinary, List.forall_mem_singleton.mpr rfl⟩

theorem ensures_sendPieces_underway (underway : sender.Underway holds) (pieces : List Piece) :
    Ensures (Underway holds) (sendPieces pieces) (fun _ => Waits holds) sender := by
  induction pieces generalizing sender with
  | nil =>
      simp only [sendPieces, ensures_bind, ensures_get]
      split
      · exact ensures_sendFilesComplete_underway underway
      · exact ⟨⟨underway.going, underway.calm, underway.ordinary, underway.basis⟩, rfl,
          fun request pieces stage => by cases stage⟩
  | cons piece pieces ih =>
      simp only [sendPieces, ensures_bind, ensures_checkCancelled, ensures_get, ensures_check,
        ensures_request]
      split
      · cases piece.chunk sender.source.store with
        | error error => exact underway
        | ok chunk =>
            dsimp only [Except.mapError]
            split
            · rw [ensures_bind, ensures_send]
              refine ih ⟨underway.going, underway.calm, ?_, underway.basis⟩
              exact List.forall_mem_append.mpr
                ⟨underway.ordinary, List.forall_mem_singleton.mpr rfl⟩
            · rw [ensures_setStage]
              refine ⟨⟨underway.going, underway.calm, underway.ordinary, underway.basis⟩, rfl, ?_⟩
              rintro request pieces ⟨⟩
              rfl
      · exact underway

theorem ensures_resumePieces_underway (underway : sender.Underway holds) {ready? : Option Request}
    (ready : ∀ request ∈ ready?, request.isCancel = false) (pieces : List Piece) :
    Ensures (Underway holds) (resumePieces ready? pieces) (fun _ => Waits holds) sender := by
  unfold resumePieces
  cases ready? with
  | none => exact ensures_sendPieces_underway underway pieces
  | some request =>
      simp only [ensures_bind, ensures_get, ensures_send]
      apply ensures_sendPieces_underway
      refine ⟨underway.going, underway.calm, ?_, underway.basis⟩
      exact List.forall_mem_append.mpr
        ⟨underway.ordinary, List.forall_mem_singleton.mpr (ready request rfl)⟩

theorem ensures_sendFiles_underway (underway : sender.Underway holds) :
    Ensures (Underway holds) sendFiles (fun _ => Waits holds) sender := by
  simp only [sendFiles, ensures_bind, ensures_transition, ensures_openScope, ensures_get,
    ensures_modifyProgress, ensures_count, ensures_request, ensures_setStage, ensures_send]
  split
  · refine ⟨⟨rfl, underway.calm, ?_, underway.basis⟩, rfl,
      fun request pieces stage => by cases stage⟩
    exact List.forall_mem_append.mpr ⟨underway.ordinary, List.forall_mem_singleton.mpr rfl⟩
  · exact underway

/-- A session that begins may fail before it has pinned its files, or after. -/
theorem ensures_begin_underway (underway : sender.Underway holds)
    (pinned : ∀ snapshot store, sender.source.store.takeSnapshot = .ok (snapshot, store) →
      holds { sender.basis with
        source := { sender.source with store }
        snapshot? := some snapshot }) :
    Ensures (Underway holds) begin (fun _ => Waits holds) sender := by
  simp only [begin, pinFiles, ensures_bind, ensures_get, ensures_check, ensures_modify,
    ensures_modifyDelivery, ensures_checkCancelled, ensures_pure]
  cases taken : sender.source.store.takeSnapshot with
  | error error => exact underway
  | ok result =>
      obtain ⟨snapshot, store⟩ := result
      have still : Underway holds { sender with
          source.store := store
          delivery.snapshot? := some snapshot } :=
        ⟨underway.going, underway.calm, underway.ordinary, pinned snapshot store taken⟩
      dsimp only [Except.mapError]
      split
      · split
        · exact ensures_sendFiles_underway
            ⟨still.going, still.calm, still.ordinary, still.basis⟩
        · exact still
      · exact still

theorem ensures_acceptChunk_underway (underway : sender.Underway holds) (request : Request)
    (reply : Reply) :
    Ensures (Underway holds) (acceptChunk request reply) (fun _ => Underway holds) sender := by
  unfold acceptChunk
  split
  · split
    · simp only [countChunk, ensures_bind, ensures_modifyProgress, ensures_count]
      exact ⟨underway.going, underway.calm, underway.ordinary, underway.basis⟩
    · exact underway
  · exact underway

theorem ensures_acceptBatch_underway (underway : sender.Underway holds) (batch : List Operation)
    (reply : Reply) :
    Ensures (Underway holds) (acceptBatch batch reply) (fun _ => Underway holds) sender := by
  unfold acceptBatch
  dsimp only
  split
  · split
    · exact underway
    · exact ⟨underway.going, underway.calm, underway.ordinary, underway.basis⟩
  · exact underway

/-- What a step comes to that takes an answer: the session goes on, or is done. -/
def Proceeded (holds : Basis → Prop) : Option Int64 → Sender → Prop
  | none, after => after.Waits holds
  | some _, after => after.Concluded holds

theorem ensures_proceed_underway (underway : sender.Underway holds)
    (ready : ∀ request pieces, sender.delivery.stage = .sending (some request) pieces →
      request.isCancel = false)
    (request : Request) (reply : Reply) :
    Ensures (Underway holds) (proceed request reply) (Proceeded holds) sender := by
  simp only [proceed, ensures_bind, ensures_get]
  split
  · simp only [ensures_bind]
    exact ensures_sendPieces_underway underway _
  · next ready? pieces stage =>
      simp only [ensures_bind]
      refine (ensures_acceptChunk_underway underway request _).mono fun _ between kept => ?_
      refine ensures_resumePieces_underway kept (fun sent same => ?_) pieces
      obtain rfl := Option.mem_def.mp same
      exact ready sent pieces stage
  · simp only [ensures_bind, closeFiles, ensures_get]
    apply ensures_closeScope_metrics
    intro journal scope? same
    refine ensures_sendOperations_underway ⟨underway.going, underway.calm, underway.ordinary, ?_⟩
    have basis := underway.basis
    unfold Sender.basis at basis ⊢
    rw [same]
    exact basis
  · next batch rest stage =>
      simp only [ensures_bind]
      refine (ensures_acceptBatch_underway underway batch _).mono fun _ between kept => ?_
      exact ensures_sendBatch_underway kept rest
  · simp only [ensures_bind, ensures_transition]
    split
    · apply ensures_closeScope_metrics
      intro journal scope? same
      refine ⟨rfl, underway.calm, ?_⟩
      have basis := underway.basis
      unfold Sender.basis at basis ⊢
      rw [same]
      exact basis
    · exact underway
  · exact underway
  · exact underway

end Sending

end ShardSync.Recovery
