import Mathlib.Algebra.GroupWithZero.Nat
import ShardSync.Proofs.Recovery.Assembly
import ShardSync.Proofs.Recovery.Course

/-!
# What a session still owes

A session counts a chunk or a batch when that is acknowledged. What it has counted
and what it has still to send are always all that there was to send, whichever
answers come first.
-/

set_option autoImplicit false

namespace ShardSync.Recovery

/-- An amount of what is sent: octets, whole files and operations. -/
@[ext]
structure Amount where
  bytes : Nat := 0
  files : Nat := 0
  ops : Nat := 0
deriving DecidableEq

namespace Amount

instance : Zero Amount := ⟨{}⟩

instance : Add Amount where
  add first second := {
    bytes := first.bytes + second.bytes
    files := first.files + second.files
    ops := first.ops + second.ops }

@[simp] theorem bytes_add (first second : Amount) :
    (first + second).bytes = first.bytes + second.bytes := rfl

@[simp] theorem files_add (first second : Amount) :
    (first + second).files = first.files + second.files := rfl

@[simp] theorem ops_add (first second : Amount) :
    (first + second).ops = first.ops + second.ops := rfl

@[simp] theorem bytes_zero : (0 : Amount).bytes = 0 := rfl

@[simp] theorem files_zero : (0 : Amount).files = 0 := rfl

@[simp] theorem ops_zero : (0 : Amount).ops = 0 := rfl

instance : AddCommMonoid Amount where
  add_assoc first second third := by ext <;> simp [Nat.add_assoc]
  zero_add amount := by ext <;> simp
  add_zero amount := by ext <;> simp
  add_comm first second := by ext <;> simp [Nat.add_comm]
  nsmul := nsmulRec

end Amount

def Piece.amount (piece : Piece) : Amount where
  bytes := piece.length
  files := if piece.isLast then 1 else 0

def Chunk.amount (chunk : Chunk) : Amount where
  bytes := chunk.content.length
  files := if chunk.isLast then 1 else 0

def Request.amount : Request → Amount
  | .step _ _ _ (.transfer chunk _) => chunk.amount
  | _ => 0

def Batches.amount (batches : Batches) : Amount where
  ops := (batches.batches.map (·.length)).sum

/-- All files that have to be sent. -/
def Inventory.amount (inventory : Inventory) : Amount where
  bytes := inventory.bytesToSend
  files := inventory.toSend.length

def Agenda.amount (agenda : Agenda) : Amount := agenda.inventory.amount + agenda.batches.amount

/-- What has been counted as acknowledged. -/
def Progress.amount (progress : Progress) : Amount where
  bytes := progress.bytesTransferred
  files := progress.filesSent
  ops := progress.opsRecovered

namespace Piece

theorem sum_cutFrom (size : Nat) (file : FileMetadata) (position : Nat) :
    ((cutFrom size file position).map amount).sum =
      { bytes := file.length.toNat - position, files := 1 } := by
  fun_induction cutFrom size file position with
  | case1 position rest last => simp [amount, rest]
  | case2 position rest further ih =>
      rw [List.map_cons, List.sum_cons, ih]
      ext
      · simp only [amount, Amount.bytes_add]
        omega
      · simp [amount]
      · simp [amount]

/-- The pieces of a file are the whole file. -/
theorem sum_cut (size : Nat) (file : FileMetadata) :
    ((cut size file).map amount).sum = { bytes := file.length.toNat, files := 1 } :=
  sum_cutFrom size file 0

theorem sum_flatMap_cut (size : Nat) (files : List FileMetadata) :
    ((files.flatMap (cut size)).map amount).sum =
      { bytes := FileMetadata.totalLength files, files := files.length } := by
  induction files with
  | nil => rfl
  | cons file files ih =>
      rw [List.flatMap_cons, List.map_append, List.sum_append, sum_cut, ih]
      ext
      · simp [FileMetadata.totalLength]
      · simp [Nat.add_comm]
      · simp

theorem amount_chunk {piece : Piece} {store : Store} {chunk : Chunk}
    (made : piece.chunk store = .ok chunk) : chunk.amount = piece.amount := by
  obtain ⟨content, _, inside, rfl⟩ := chunk_eq_ok_iff.mp made
  have length : (content.toBytes.slice piece.position piece.length).length = piece.length :=
    Bytes.length_slice (by rwa [Content.length_toBytes])
  simp [Chunk.amount, amount, length]

end Piece

/-- How much is announced at the beginning. -/
structure Totals where
  files : Nat
  filesReused : Nat
  bytes : Nat
  bytesReused : Nat
  ops : Nat
deriving DecidableEq

def Progress.totals (progress : Progress) : Totals where
  files := progress.filesTotal
  filesReused := progress.filesReused
  bytes := progress.bytesTotal
  bytesReused := progress.bytesReused
  ops := progress.opsTotal

def Agenda.totals (agenda : Agenda) : Totals where
  files := agenda.inventory.totalFiles
  filesReused := agenda.inventory.alreadyPresent.length
  bytes := agenda.inventory.totalBytes
  bytesReused := agenda.inventory.bytesReused
  ops := agenda.totalOps.toNat

namespace Sender

/-- The requests that wait for an answer. -/
def awaited (sender : Sender) : Amount :=
  (sender.delivery.outstanding.map (·.request.amount)).sum

/-- What has to be acknowledged before the session can succeed. -/
def due (sender : Sender) : Amount :=
  match sender.delivery.stage with
  | .queued | .announcing => sender.delivery.agenda.amount
  | .sending ready? pieces =>
      sender.awaited + (ready?.elim 0 (·.amount) +
        ((pieces.map (·.amount)).sum + sender.delivery.agenda.batches.amount))
  | .completing => sender.delivery.agenda.batches.amount
  | .replaying batch rest => { ops := batch.length } + rest.amount
  | .finalizing | .cancelling _ | .ended _ => 0

/-- What has been counted and what is due make up what there was to send. -/
structure Owes (due : Amount) (sender : Sender) : Prop where
  announced : sender.delivery.session.progress.totals = sender.delivery.agenda.totals
  counted : sender.delivery.session.progress.amount + due = sender.delivery.agenda.amount

/-- The session waits for an answer, and accounts for all that it has to send. -/
def Accounts (sender : Sender) : Prop :=
  sender.delivery.isWaiting = true ∧ sender.Owes sender.due

end Sender

namespace Sending

open Sender (Owes Accounts)

variable {sender : Sender} {due : Amount}

theorem accounts_sendFinalize (owes : sender.Owes 0) :
    Ensures (fun _ => True) sendFinalize (fun _ => Accounts) sender := by
  simp only [sendFinalize, ensures_bind, ensures_transition, ensures_openScope, ensures_get,
    ensures_request, ensures_setStage, ensures_send]
  split
  · exact ⟨rfl, owes.announced, owes.counted⟩
  · trivial

theorem accounts_sendBatch {rest : Batches} (owes : sender.Owes rest.amount) :
    Ensures (fun _ => True) (sendBatch rest) (fun _ => Accounts) sender := by
  unfold sendBatch
  split
  · next batch batches listed =>
      simp only [ensures_bind, ensures_checkCancelled, ensures_get, ensures_request,
        ensures_setStage, ensures_send]
      split
      · refine ⟨rfl, owes.announced, ?_⟩
        have same : rest.amount = { ops := batch.length } + Batches.amount { rest with batches } := by
          ext <;> simp [Batches.amount, listed]
        rw [← owes.counted, same]
        rfl
      · trivial
  · next listed =>
      split
      · trivial
      · simp only [ensures_bind, ensures_get]
        apply ensures_closeScope
        intro journal scope?
        apply accounts_sendFinalize
        refine ⟨owes.announced, ?_⟩
        rw [← owes.counted, Batches.amount, listed]
        rfl

theorem accounts_sendOperations (owes : sender.Owes sender.delivery.agenda.batches.amount) :
    Ensures (fun _ => True) sendOperations (fun _ => Accounts) sender := by
  simp only [sendOperations, ensures_bind, ensures_transition, ensures_openScope, ensures_get]
  split
  · exact accounts_sendBatch ⟨owes.announced, owes.counted⟩
  · trivial

theorem accounts_sendFilesComplete (owes : sender.Owes sender.delivery.agenda.batches.amount) :
    Ensures (fun _ => True) sendFilesComplete (fun _ => Accounts) sender := by
  simp only [sendFilesComplete, ensures_bind, ensures_get, ensures_request, ensures_setStage,
    ensures_send]
  exact ⟨rfl, owes.announced, owes.counted⟩

theorem accounts_sendPieces {pieces : List Piece}
    (owes : sender.Owes (sender.awaited +
      ((pieces.map (·.amount)).sum + sender.delivery.agenda.batches.amount))) :
    Ensures (fun _ => True) (sendPieces pieces) (fun _ => Accounts) sender := by
  induction pieces generalizing sender with
  | nil =>
      simp only [sendPieces, ensures_bind, ensures_get]
      split
      · next idle =>
          apply accounts_sendFilesComplete
          refine ⟨owes.announced, ?_⟩
          rw [← owes.counted, Sender.awaited, List.isEmpty_iff.mp idle]
          simp
      · rw [ensures_setStage]
        refine ⟨rfl, owes.announced, ?_⟩
        rw [← owes.counted]
        simp [Sender.due, Sender.awaited]
  | cons piece pieces ih =>
      simp only [sendPieces, ensures_bind, ensures_checkCancelled, ensures_get, ensures_check,
        ensures_request]
      split
      · cases made : piece.chunk sender.source.store with
        | error error => trivial
        | ok chunk =>
            have same := Piece.amount_chunk made
            dsimp only [Except.mapError]
            split
            · rw [ensures_bind, ensures_send]
              refine ih ⟨owes.announced, ?_⟩
              rw [← owes.counted]
              simp [Sender.awaited, Request.amount, same, add_assoc]
            · rw [ensures_setStage]
              refine ⟨rfl, owes.announced, ?_⟩
              rw [← owes.counted]
              simp [Sender.due, Request.amount, same, Sender.awaited, add_assoc]
      · trivial

theorem accounts_resumePieces {ready? : Option Request} {pieces : List Piece}
    (owes : sender.Owes (sender.awaited + (ready?.elim 0 (·.amount) +
      ((pieces.map (·.amount)).sum + sender.delivery.agenda.batches.amount)))) :
    Ensures (fun _ => True) (resumePieces ready? pieces) (fun _ => Accounts) sender := by
  unfold resumePieces
  cases ready? with
  | none =>
      apply accounts_sendPieces
      simpa using owes
  | some request =>
      simp only [ensures_bind, ensures_get, ensures_send]
      apply accounts_sendPieces
      refine ⟨owes.announced, ?_⟩
      rw [← owes.counted]
      simp [Sender.awaited, add_assoc]

theorem accounts_sendFiles (none : sender.delivery.session.progress.amount = 0) :
    Ensures (fun _ => True) sendFiles (fun _ => Accounts) sender := by
  simp only [sendFiles, ensures_bind, ensures_transition, ensures_openScope, ensures_get,
    ensures_modifyProgress, ensures_count, ensures_request, ensures_setStage, ensures_send]
  split
  · refine ⟨rfl, rfl, ?_⟩
    exact (congrArg (· + _) none).trans (zero_add _)
  · trivial

theorem accounts_begin (none : sender.delivery.session.progress.amount = 0) :
    Ensures (fun _ => True) begin (fun _ => Accounts) sender := by
  simp only [begin, pinFiles, ensures_bind, ensures_get, ensures_check, ensures_modify,
    ensures_modifyDelivery, ensures_checkCancelled, ensures_pure]
  split
  · split
    · split
      · exact accounts_sendFiles none
      · trivial
    · trivial
  · trivial

/-- A session that has taken an answer owes less, and waits for the same others. -/
def Settles (due : Amount) (before after : Sender) : Prop :=
  after.Owes due ∧ after.delivery.agenda = before.delivery.agenda ∧
    after.delivery.outstanding = before.delivery.outstanding

theorem settles_acceptChunk {request : Request} (owes : sender.Owes (request.amount + due))
    (reply : Reply) :
    Ensures (fun _ => True) (acceptChunk request reply) (fun _ => Settles due sender) sender := by
  unfold acceptChunk
  split
  · split
    · simp only [countChunk, ensures_bind, ensures_modifyProgress, ensures_count]
      refine ⟨⟨owes.announced, ?_⟩, rfl, rfl⟩
      rw [← owes.counted, ← add_assoc]
      rfl
    · trivial
  · trivial

theorem settles_acceptBatch {batch : List Operation}
    (owes : sender.Owes ({ ops := batch.length } + due)) (reply : Reply) :
    Ensures (fun _ => True) (acceptBatch batch reply) (fun _ => Settles due sender) sender := by
  unfold acceptBatch
  dsimp only
  split
  · split
    · trivial
    · refine ⟨⟨owes.announced, ?_⟩, rfl, rfl⟩
      rw [← owes.counted, ← add_assoc]
      rfl
  · trivial

theorem settles_closeFiles (owes : sender.Owes due) :
    Ensures (fun _ => True) closeFiles (fun _ => Settles due sender) sender := by
  simp only [closeFiles, ensures_bind, ensures_get]
  apply ensures_closeScope
  intro journal scope?
  exact ⟨⟨owes.announced, owes.counted⟩, rfl, rfl⟩

end Sending

namespace Sender

open Sending (Ensures Settles)

variable {script : Script} {agenda : Agenda} {sender : Sender}

/-- A session accounts for all that it has to send, from its turn on and unless it fails. -/
structure Honest (sender : Sender) : Prop where
  queued : sender.delivery.stage = .queued → sender.delivery.session.progress.amount = 0
  waiting : sender.delivery.isWaiting = true → sender.Accounts
  ended : ∀ checkpoint, sender.delivery.stage = .ended (.ok checkpoint) → sender.Owes 0

theorem honest_of_isCancelling (cancelling : sender.isCancelling = true) : sender.Honest := by
  unfold isCancelling at cancelling
  split at cancelling
  · next stage => exact ⟨by simp [stage], by simp [Delivery.isWaiting, stage], by simp [stage]⟩
  · cases cancelling

theorem Accounts.honest (accounts : sender.Accounts) : sender.Honest := by
  have waiting := accounts.1
  refine ⟨fun stage => ?_, fun _ => accounts, fun checkpoint stage => ?_⟩
  · simp [Delivery.isWaiting, stage] at waiting
  · simp [Delivery.isWaiting, stage] at waiting

theorem isCancelling_fail (sender : Sender) (error : Error) :
    (sender.fail error).isCancelling = true := rfl

theorem honest_fail (sender : Sender) (error : Error) : (sender.fail error).Honest :=
  honest_of_isCancelling (isCancelling_fail sender error)

theorem honest_settle {step : Sending (Option Int64)}
    (ensures : Ensures (fun _ => True) step
      (fun result after => result = none ∧ after.Accounts) sender) :
    (settle (step.start sender)).Honest := by
  unfold Ensures at ensures
  cases ran : step.start sender with
  | mk outcome after =>
      rw [ran] at ensures
      cases outcome with
      | error error => exact honest_fail after error
      | ok result =>
          obtain ⟨rfl, accounts⟩ := ensures
          simp only [settle]
          split
          · exact accounts.honest
          · split
            · exact honest_fail after _
            · exact accounts.honest

theorem Owes.without {due : Amount} (owes : sender.Owes due) (index : Nat) :
    (sender.without index).Owes due := ⟨owes.announced, owes.counted⟩

theorem amount_awaited {index : Nat} {sent : Outstanding}
    (found : sender.delivery.outstanding[index]? = some sent) :
    sender.awaited = sent.request.amount + (sender.without index).awaited := by
  obtain ⟨inside, rfl⟩ := List.getElem?_eq_some_iff.mp found
  have perm := List.getElem_cons_eraseIdx_perm inside
  exact ((perm.map fun sent => sent.request.amount).sum_eq).symm

theorem accounts_proceed_announcing (owes : sender.Owes sender.delivery.agenda.amount)
    (stage : sender.delivery.stage = .announcing) (idle : sender.delivery.outstanding = [])
    (request : Request) (reply : Reply) :
    Ensures (fun _ => True) (Sending.proceed request reply)
      (fun result after => result = none ∧ after.Accounts) sender := by
  simp only [Sending.proceed, Sending.ensures_bind, Sending.ensures_get, stage]
  cases reply with
  | ack =>
      simp only [Sending.ensures_bind]
      refine (Sending.accounts_sendPieces ⟨owes.announced, ?_⟩).mono
        fun _ after accounts => ⟨rfl, accounts⟩
      rw [awaited, idle, Piece.sum_flatMap_cut]
      simpa [Agenda.amount, Inventory.amount, Inventory.bytesToSend] using owes.counted
  | _ => trivial

theorem accounts_proceed_sending {request : Request} {ready? : Option Request}
    {pieces : List Piece} (stage : sender.delivery.stage = .sending ready? pieces)
    (owes : sender.Owes (request.amount + (sender.awaited + (ready?.elim 0 (·.amount) +
      ((pieces.map (·.amount)).sum + sender.delivery.agenda.batches.amount))))) (reply : Reply) :
    Ensures (fun _ => True) (Sending.proceed request reply)
      (fun result after => result = none ∧ after.Accounts) sender := by
  simp only [Sending.proceed, Sending.ensures_bind, Sending.ensures_get, stage]
  refine (Sending.settles_acceptChunk owes reply).mono ?_
  rintro _ between ⟨owes, agenda, outstanding⟩
  refine (Sending.accounts_resumePieces ?_).mono fun _ after accounts => ⟨rfl, accounts⟩
  rwa [awaited, outstanding, agenda]

theorem accounts_proceed_completing (owes : sender.Owes sender.delivery.agenda.batches.amount)
    (stage : sender.delivery.stage = .completing) (request : Request) (reply : Reply) :
    Ensures (fun _ => True) (Sending.proceed request reply)
      (fun result after => result = none ∧ after.Accounts) sender := by
  simp only [Sending.proceed, Sending.ensures_bind, Sending.ensures_get, stage]
  cases reply with
  | ack =>
      simp only [Sending.ensures_bind]
      refine (Sending.settles_closeFiles owes).mono ?_
      rintro _ between ⟨owes, agenda, _⟩
      refine (Sending.accounts_sendOperations ?_).mono fun _ after accounts => ⟨rfl, accounts⟩
      rwa [agenda]
  | _ => trivial

theorem accounts_proceed_replaying {batch : List Operation} {rest : Batches}
    (owes : sender.Owes ({ ops := batch.length } + rest.amount))
    (stage : sender.delivery.stage = .replaying batch rest) (request : Request) (reply : Reply) :
    Ensures (fun _ => True) (Sending.proceed request reply)
      (fun result after => result = none ∧ after.Accounts) sender := by
  simp only [Sending.proceed, Sending.ensures_bind, Sending.ensures_get, stage]
  refine (Sending.settles_acceptBatch owes reply).mono ?_
  rintro _ between ⟨owes, _, _⟩
  exact (Sending.accounts_sendBatch owes).mono fun _ after accounts => ⟨rfl, accounts⟩

/-- A session that succeeds owes nothing. -/
theorem honest_finish {result : Except Error Int64}
    (owes : ∀ checkpoint, result = .ok checkpoint → sender.Owes 0) :
    (sender.finish result).Honest := by
  obtain ⟨_, agenda, session, stage, _⟩ := finish_cases sender result
  refine ⟨fun queued => ?_, fun waiting => ?_, fun checkpoint succeeded => ?_⟩
  · simp [stage] at queued
  · simp [Delivery.isWaiting, stage] at waiting
  · rw [stage] at succeeded
    cases succeeded
    obtain ⟨announced, counted⟩ := owes checkpoint rfl
    rw [← session, ← agenda] at announced counted
    exact ⟨announced, counted⟩

theorem honest_proceed_finalizing (owes : sender.Owes 0)
    (stage : sender.delivery.stage = .finalizing) (request : Request) (reply : Reply) :
    (settle ((Sending.proceed request reply).start sender)).Honest := by
  have ensures : Ensures (fun _ => True) (Sending.proceed request reply)
      (fun result after => (∃ checkpoint, result = some checkpoint) ∧ after.Owes 0) sender := by
    simp only [Sending.proceed, Sending.ensures_bind, Sending.ensures_get, stage]
    cases reply with
    | finalizeAck checkpoint =>
        simp only [Sending.ensures_bind, Sending.ensures_transition]
        split
        · apply Sending.ensures_closeScope
          intro journal scope?
          exact ⟨⟨checkpoint, rfl⟩, owes.announced, owes.counted⟩
        · trivial
    | _ => trivial
  unfold Ensures at ensures
  cases ran : (Sending.proceed request reply).start sender with
  | mk outcome after =>
      rw [ran] at ensures
      cases outcome with
      | error error => exact honest_fail after error
      | ok result =>
          obtain ⟨⟨checkpoint, rfl⟩, owes⟩ := ensures
          have finished : (after.finish (.ok checkpoint)).Honest := honest_finish fun _ _ => owes
          exact finished

/-- Whatever a session is answered, it goes on to account for all that it has to send. -/
theorem Honest.receive (honest : sender.Honest) (fits : sender.Fits script) (index : Nat)
    (answer : Except Error Reply) : (sender.receive index answer).Honest := by
  cases found : sender.delivery.outstanding[index]? with
  | none =>
      unfold Sender.receive
      rwa [found]
  | some sent =>
      have going (waiting : sender.delivery.isWaiting = true)
          (proceeds : sender.Owes sender.due → ∀ reply,
            (settle ((Sending.proceed sent.request reply).start (sender.without index))).Honest) :
          (sender.receive index answer).Honest := by
        have uncancelled : sender.isCancelling = false := by
          unfold Delivery.isWaiting at waiting
          unfold isCancelling
          split <;> simp_all
        rw [receive_eq found uncancelled]
        cases answer with
        | error error => exact honest_fail _ error
        | ok reply => exact proceeds (honest.waiting waiting).2 reply
      cases fits with
      | queued _ _ idle => simp [idle] at found
      | announcing _ stage single =>
          refine going (by simp [Delivery.isWaiting, stage]) fun owes reply => honest_settle ?_
          rw [due, stage] at owes
          refine accounts_proceed_announcing ?_ ?_ (idle_without found single) _ reply
          · exact owes.without index
          · exact stage
      | sending _ stage =>
          refine going (by simp [Delivery.isWaiting, stage]) fun owes reply => honest_settle ?_
          rw [due, stage] at owes
          dsimp only at owes
          rw [amount_awaited found, add_assoc] at owes
          refine accounts_proceed_sending ?_ (owes.without index) reply
          exact stage
      | completing _ stage =>
          refine going (by simp [Delivery.isWaiting, stage]) fun owes reply => honest_settle ?_
          rw [due, stage] at owes
          refine accounts_proceed_completing ?_ ?_ _ reply
          · exact owes.without index
          · exact stage
      | @replaying _ batch rest _ stage =>
          refine going (by simp [Delivery.isWaiting, stage]) fun owes reply => honest_settle ?_
          rw [due, stage] at owes
          refine @accounts_proceed_replaying (sender.without index) batch rest ?_ ?_ _ reply
          · exact owes.without index
          · exact stage
      | finalizing _ _ _ _ _ stage =>
          refine going (by simp [Delivery.isWaiting, stage]) fun owes reply => ?_
          rw [due, stage] at owes
          refine honest_proceed_finalizing ?_ ?_ _ reply
          · exact owes.without index
          · exact stage
      | cancelling _ _ stage =>
          unfold Sender.receive
          rw [found, stage]
          exact honest_finish fun _ succeeded => by cases succeeded
      | failed _ _ _ idle => simp [idle] at found
      | done _ _ _ _ _ _ idle => simp [idle] at found

theorem Honest.launch (honest : sender.Honest) : sender.launch.Honest := by
  unfold Sender.launch
  split
  · exact honest_fail sender _
  · next queued _ =>
      apply honest_settle
      rw [Sending.ensures_bind]
      refine (Sending.accounts_begin ?_).mono fun _ after accounts => ⟨rfl, accounts⟩
      exact honest.queued queued
  · exact honest

theorem Honest.abandon (honest : sender.Honest) : sender.abandon.Honest := by
  unfold Sender.abandon settle
  dsimp only
  split
  · exact honest
  · split
    · exact honest_fail sender _
    · exact honest

theorem Honest.cancel (honest : sender.Honest) (reason : String) :
    (sender.cancel reason).Honest where
  queued := honest.queued
  waiting waiting := by
    obtain ⟨still, announced, counted⟩ := honest.waiting waiting
    exact ⟨still, announced, counted⟩
  ended checkpoint succeeded := by
    obtain ⟨announced, counted⟩ := honest.ended checkpoint succeeded
    exact ⟨announced, counted⟩

theorem honest_opened (script : Script) : script.opened.Honest where
  queued _ := rfl
  waiting waiting := by cases waiting
  ended _ ended := by cases ended

end Sender

end ShardSync.Recovery
