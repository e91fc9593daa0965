import ShardSync.Proofs.Recovery.Receiving
import ShardSync.Proofs.Store.Promotion
import ShardSync.Recovery.Target.Handle

/-!
# Phases of a target

Which phase a command needs, and which one it leads to when it succeeds. A
command that fails has not ended the recovery by itself; the failure does.
-/

set_option autoImplicit false

namespace ShardSync.Recovery

namespace Progress

/-- A recovery that is going on can fail, and keeps its first failure. -/
theorem fail_of_going {progress : Progress} (going : progress.isTerminal = false)
    (description : String) (cancelled : Bool) :
    progress.fail description cancelled =
      (true, { progress with
        phase := .failed
        isCancelled := progress.isCancelled || cancelled
        failure? := progress.failure? <|> some description }) := by
  have may : progress.phase.mayBecome .failed = true := by
    unfold Progress.isTerminal at going
    cases which : progress.phase <;> simp_all [Phase.mayBecome, Phase.isTerminal]
  simp only [Progress.fail, Progress.transition, may, ↓reduceIte]

theorem expect_ok {progress : Progress} {phase : Phase} (met : progress.expect phase = .ok ()) :
    progress.phase = phase := by
  unfold expect at met
  split at met
  · next same => exact same
  · cases met

end Progress

namespace Receiver

def phase (receiver : Receiver) : Phase := receiver.target.progress.phase

def isOver (receiver : Receiver) : Bool := receiver.target.progress.isTerminal

/-- The four ways in which a request is answered. -/
inductive Answer (receiver : Receiver) : Request → Reply → Receiver → Prop where
  | cancelled {recovery : Int64} {shard : ShardId} {reason : String} :
      Answer receiver (.cancel recovery shard reason) .ack (receiver.cancel reason)
  | refused {number recovery : Int64} {shard : ShardId} {command : Command} {error : Error}
      (ended : receiver.isOver = true) :
      Answer receiver (.step number recovery shard command) (.ofError error) receiver
  | performed {number recovery : Int64} {shard : ShardId} {command : Command} {reply : Reply}
      {after : Receiver} (going : receiver.isOver = false)
      (ran : command.perform.start receiver = (.ok reply, after)) :
      Answer receiver (.step number recovery shard command) reply after
  | failed {number recovery : Int64} {shard : ShardId} {command : Command} {error : Error}
      {between : Receiver} (going : receiver.isOver = false)
      (ran : command.perform.start receiver = (.error error, between)) :
      Answer receiver (.step number recovery shard command) (.ofError (between.locate error))
        (between.fail (between.locate error))

theorem handle_of_isOver {receiver : Receiver} (ended : receiver.isOver = true)
    (number recovery : Int64) (shard : ShardId) (command : Command) :
    ∃ error, receiver.handle (.step number recovery shard command) = (.ofError error, receiver) :=
  ⟨_, if_pos ended⟩

theorem handle_of_ok {receiver after : Receiver} {command : Command} {reply : Reply}
    (going : receiver.isOver = false)
    (ran : command.perform.start receiver = (.ok reply, after))
    (number recovery : Int64) (shard : ShardId) :
    receiver.handle (.step number recovery shard command) = (reply, after) := by
  have going : receiver.target.progress.isTerminal = false := going
  simp only [handle, going, Bool.false_eq_true, if_false, ran]

theorem handle_of_error {receiver between : Receiver} {command : Command} {error : Error}
    (going : receiver.isOver = false)
    (ran : command.perform.start receiver = (.error error, between))
    (number recovery : Int64) (shard : ShardId) :
    receiver.handle (.step number recovery shard command) =
      (.ofError (between.locate error), between.fail (between.locate error)) := by
  have going : receiver.target.progress.isTerminal = false := going
  simp only [handle, going, Bool.false_eq_true, if_false, ran]

theorem answer_handle (receiver : Receiver) (request : Request) :
    Answer receiver request (receiver.handle request).1 (receiver.handle request).2 := by
  cases request with
  | cancel recovery shard reason => exact .cancelled
  | step number recovery shard command =>
      cases ended : receiver.isOver with
      | true =>
          obtain ⟨error, refused⟩ := handle_of_isOver ended number recovery shard command
          rw [refused]
          exact .refused ended
      | false =>
          cases ran : command.perform.start receiver with
          | mk outcome after =>
              cases outcome with
              | ok reply =>
                  rw [handle_of_ok ended ran]
                  exact .performed ended ran
              | error error =>
                  rw [handle_of_error ended ran]
                  exact .failed ended ran

/-- A step is carried out if its reply is not a failure. -/
theorem perform_of_handle {receiver after : Receiver} {command : Command} {reply : Reply}
    {number recovery : Int64} {shard : ShardId}
    (handled : receiver.handle (.step number recovery shard command) = (reply, after))
    (answered : ∀ error, reply ≠ .ofError error) :
    command.perform.start receiver = (.ok reply, after) := by
  have answer := answer_handle receiver (.step number recovery shard command)
  rw [handled] at answer
  generalize asked : Request.step number recovery shard command = request at answer
  cases answer with
  | cancelled => cases asked
  | refused ended => exact absurd rfl (answered _)
  | performed going ran =>
      cases asked
      exact ran
  | failed going ran => exact absurd rfl (answered _)

theorem isOver_eq (receiver : Receiver) : receiver.isOver = receiver.phase.isTerminal := rfl

theorem isOver_of_phase {receiver : Receiver} {phase : Phase} (reached : receiver.phase = phase) :
    receiver.isOver = phase.isTerminal := congrArg Phase.isTerminal reached

theorem going_of_ops {receiver : Receiver} (inOps : receiver.phase = .ops) :
    receiver.isOver = false := isOver_of_phase inOps

@[simp] theorem target_removeTemps (receiver : Receiver) :
    receiver.removeTemps.target = receiver.target := by
  unfold removeTemps
  cases receiver.copy.store.removeTemps receiver.target.recovery with
  | mk outcome store => cases outcome <;> rfl

@[simp] theorem store_removeTemps (receiver : Receiver) :
    receiver.removeTemps.copy.store =
      (receiver.copy.store.removeTemps receiver.target.recovery).2 := by
  unfold removeTemps
  cases receiver.copy.store.removeTemps receiver.target.recovery with
  | mk outcome store => cases outcome <;> rfl

@[simp] theorem target_restoreEngine (receiver : Receiver) :
    receiver.restoreEngine.target = { receiver.target with hasStaged := false } := by
  unfold restoreEngine
  by_cases staged : receiver.target.hasStaged = true
  · rw [if_pos staged]
    dsimp only
    cases liveEngine receiver.copy <;> rfl
  · rw [if_neg staged, ← Bool.not_eq_true _ |>.mp staged]

@[simp] theorem store_restoreEngine (receiver : Receiver) :
    receiver.restoreEngine.copy.store = receiver.copy.store := by
  unfold restoreEngine
  split
  · dsimp only
    cases liveEngine receiver.copy <;> rfl
  · rfl

/-- Giving up a recovery that is going on makes it a failed one. -/
theorem progress_abort {receiver : Receiver} (going : receiver.isOver = false)
    (description : String) (cancelled : Bool) (event : Log.Event)
    (fields : List (String × String)) :
    (receiver.abort description cancelled event fields).target.progress =
      { receiver.target.progress with
        phase := .failed
        isCancelled := receiver.target.progress.isCancelled || cancelled
        failure? := receiver.target.progress.failure? <|> some description } := by
  have still : receiver.removeTemps.restoreEngine.target.progress.isTerminal = false := by
    simpa [isOver] using going
  simp only [abort, Progress.fail_of_going still]
  simp [log, logLine]

theorem phase_abort {receiver : Receiver} (going : receiver.isOver = false)
    (description : String) (cancelled : Bool) (event : Log.Event)
    (fields : List (String × String)) :
    (receiver.abort description cancelled event fields).phase = .failed :=
  congrArg Progress.phase (progress_abort going description cancelled event fields)

@[simp] theorem store_abort (receiver : Receiver) (description : String) (cancelled : Bool)
    (event : Log.Event) (fields : List (String × String)) :
    (receiver.abort description cancelled event fields).copy.store =
      (receiver.copy.store.removeTemps receiver.target.recovery).2 := by
  unfold abort
  dsimp only
  split <;> simp [log, logLine]

theorem phase_cancel {receiver : Receiver} (going : receiver.isOver = false) (reason : String) :
    (receiver.cancel reason).phase = .failed := by
  unfold cancel
  rw [if_neg (by simpa [isOver] using going)]
  exact phase_abort going ..

theorem cancel_of_isOver {receiver : Receiver} (ended : receiver.isOver = true)
    (reason : String) : receiver.cancel reason = receiver := by
  unfold cancel
  rw [if_pos (by simpa [isOver] using ended)]

end Receiver

namespace Receiving

/-- All of a receiver but what the transfer of files changes: what is known of
the files to receive, their content, the number of verified ones, and the
journal. -/
def besidesFiles (receiver : Receiver) : Receiver where
  target := { receiver.target with incoming := ∅, progress.filesSent := 0 }
  copy := { receiver.copy with store.files := ∅ }

theorem besidesFiles_stage (file : String × UInt64) : Keeps besidesFiles (stage file) := by
  refine .bind .get fun receiver => .bind (.throughStore fun receiver => ?_) fun _ =>
    .modifyTarget fun _ => rfl
  simp only [besidesFiles, Store.pins_createSized]

theorem announce_ok {announcement : Announcement} {totalOps : UInt32} {reply : Reply}
    {receiver final : Receiver}
    (ran : (announce announcement totalOps).start receiver = (.ok reply, final)) :
    receiver.phase = .init ∧ reply = .ack ∧
      ∃ bytes between, announcement.accept receiver.copy.store = .ok bytes ∧
        ((announcement.names.zip announcement.sizes).forM stage).start receiver =
          (.ok (), between) ∧
        final.copy = between.copy ∧
        final.target = { between.target with
          existing := announcement.existingNames
          totalOps := totalOps.toNat
          progress := { between.target.progress.setFileTotals
            (announcement.names.length + announcement.existingNames.length)
            announcement.existingNames.length bytes.total bytes.reused with
              opsTotal := totalOps.toNat
              phase := .files } } := by
  unfold announce at ran
  rw [start_get_bind] at ran
  obtain ⟨_, expected, ran⟩ := check_bind_ok ran
  obtain ⟨bytes, accepted, ran⟩ := check_bind_ok ran
  obtain ⟨_, between, staged, ran⟩ := bind_ok ran
  rw [start_bind_of_ok (start_modifyTarget _ _), start_bind_of_ok (start_modifyProgress _ _)]
    at ran
  obtain ⟨_, moved, first, ran⟩ := bind_ok ran
  obtain ⟨_, same⟩ := transition_ok first
  simp only [same, start_bind, start_log, start_pure, Prod.mk.injEq, Except.ok.injEq] at ran
  obtain ⟨rfl, rfl⟩ := ran
  exact ⟨Progress.expect_ok expected, rfl, bytes, between, accepted, staged, rfl, rfl⟩

theorem besidesFiles_discard (incoming : Incoming) : Keeps besidesFiles (discard incoming) := by
  intro receiver
  simp only [discard, start_get_bind]
  cases deleted : receiver.copy.store.delete incoming.tempName with
  | error error => rfl
  | ok store =>
      obtain ⟨_, _, rfl⟩ := Store.delete_eq_ok_iff.mp deleted
      rfl

theorem besidesFiles_checkContent (incoming : Incoming) (chunk : Chunk) :
    Keeps besidesFiles (checkContent incoming chunk) := by
  refine .ite ?_ (.pure ())
  refine .bind (.count fun _ => rfl) fun _ => .bind (.log fun _ _ => rfl) fun _ => ?_
  exact .bind (besidesFiles_discard incoming) fun _ => .throw _

theorem besidesFiles_writeChunk (incoming : Incoming) (chunk : Chunk) :
    Keeps besidesFiles (writeChunk incoming chunk) := by
  refine .ite (.pure incoming) ?_
  refine .bind (.onStore fun receiver store written => ?_) fun _ =>
    .bind (.modifyTarget fun _ => rfl) fun _ => .pure _
  obtain ⟨_, _, rfl⟩ := Store.writeAt_eq_ok_iff.mp written
  rfl

theorem besidesFiles_verify (incoming : Incoming) (file : FileMetadata) :
    Keeps besidesFiles (verify incoming file) := by
  refine .bind .get fun receiver => ?_
  cases receiver.copy.store.verify incoming.tempName file with
  | error error =>
      refine .bind (.count fun _ => rfl) fun _ => .bind (.log fun _ _ => rfl) fun _ => ?_
      exact .bind (besidesFiles_discard incoming) fun _ => .throw _
  | ok _ =>
      refine .bind (.modifyTarget fun _ => rfl) fun _ => ?_
      exact .bind (.modifyProgress fun _ => rfl) fun _ => .log fun _ _ => rfl

theorem besidesFiles_transfer (chunk : Chunk) : Keeps besidesFiles (transfer chunk) := by
  refine .bind .get fun receiver => .bind (.check _) fun _ => ?_
  cases receiver.target.incoming[chunk.file.name]? with
  | none => exact .throw _
  | some incoming =>
      refine .ite ?_ (.pure _)
      refine .bind (.check _) fun incoming => .bind (.modifyTarget fun _ => rfl) fun _ => ?_
      refine .bind (.check _) fun _ => .bind (besidesFiles_checkContent _ _) fun _ => ?_
      refine .bind (besidesFiles_writeChunk _ _) fun incoming => ?_
      exact .ite (.bind (besidesFiles_verify _ _) fun _ => .pure _) (.pure _)

theorem transfer_ok {chunk : Chunk} {reply : Reply} {receiver final : Receiver}
    (ran : (transfer chunk).start receiver = (.ok reply, final)) :
    receiver.phase = .files ∧ final.phase = .files := by
  have kept := ((besidesFiles_transfer chunk).part Receiver.phase).of_ok ran
  unfold transfer at ran
  rw [start_get_bind] at ran
  obtain ⟨_, expected, _⟩ := check_bind_ok ran
  have before : receiver.phase = .files := Progress.expect_ok expected
  exact ⟨before, kept.trans before⟩

theorem transfer_reply {chunk : Chunk} {reply : Reply} {receiver final : Receiver}
    (ran : (transfer chunk).start receiver = (.ok reply, final)) :
    reply = .chunkAck chunk.position := by
  unfold transfer at ran
  rw [start_get_bind] at ran
  obtain ⟨_, _, ran⟩ := check_bind_ok ran
  cases known : receiver.target.incoming[chunk.file.name]? with
  | none =>
      rw [known] at ran
      cases ran
  | some incoming =>
      rw [known] at ran
      dsimp only at ran
      split at ran
      · obtain ⟨_, _, ran⟩ := check_bind_ok ran
        obtain ⟨_, _, _, ran⟩ := bind_ok ran
        obtain ⟨_, _, ran⟩ := check_bind_ok ran
        obtain ⟨_, _, _, ran⟩ := bind_ok ran
        obtain ⟨_, _, _, ran⟩ := bind_ok ran
        split at ran
        · obtain ⟨_, _, _, ran⟩ := bind_ok ran
          exact (pure_ok ran).1.symm
        · exact (pure_ok ran).1.symm
      · exact (pure_ok ran).1.symm

theorem stagedSegment_ok {file : String × String} {segment : Segment}
    {receiver final : Receiver}
    (ran : (stagedSegment file).start receiver = (.ok segment, final)) :
    readSegment receiver.copy.store file.2 = .ok segment ∧ final = receiver := by
  unfold stagedSegment at ran
  rw [start_get_bind] at ran
  obtain ⟨content, found, ran⟩ := check_bind_ok ran
  cases decoded : Segment.decode content with
  | error error => simp [decoded, start_bind] at ran
  | ok decodedSegment =>
      simp only [decoded] at ran
      obtain ⟨same, unchanged⟩ := pure_ok ran
      refine ⟨?_, unchanged⟩
      simp [readSegment, mapError_eq_ok_iff.mp found, decoded, same, bind, Except.bind,
        Except.mapError]

theorem mapM_stagedSegment_ok {files : List (String × String)} {segments : List Segment}
    {receiver final : Receiver}
    (ran : (files.mapM stagedSegment).start receiver = (.ok segments, final)) :
    files.mapM (fun file => readSegment receiver.copy.store file.2) = .ok segments ∧
      final = receiver := by
  induction files generalizing segments final with
  | nil =>
      obtain ⟨same, unchanged⟩ := pure_ok ran
      exact ⟨congrArg Except.ok same, unchanged⟩
  | cons file files ih =>
      rw [List.mapM_cons] at ran
      obtain ⟨segment, between, first, ran⟩ := bind_ok ran
      obtain ⟨read, unchanged⟩ := stagedSegment_ok first
      rw [unchanged] at ran
      obtain ⟨rest, later, others, ran⟩ := bind_ok ran
      obtain ⟨readOthers, unchangedLater⟩ := ih others
      obtain ⟨same, finished⟩ := pure_ok ran
      refine ⟨?_, finished.trans unchangedLater⟩
      simp [List.mapM_cons, read, readOthers, same, bind, Except.bind, pure, Except.pure]

end Receiving

theorem readSegment_eq_ok_iff {store : Store} {name : String} {segment : Segment} :
    readSegment store name = .ok segment ↔ ∃ content, Store.isValidName name = true ∧
      store.files[name]? = some content ∧ Segment.decode content.toBytes = .ok segment := by
  simp only [readSegment, Store.read, bind_eq_ok_iff, mapError_eq_ok_iff]
  constructor
  · rintro ⟨octets, ⟨content, found, same⟩, decoded⟩
    cases same
    obtain ⟨valid, there⟩ := Store.content_eq_ok_iff.mp found
    exact ⟨content, valid, there, decoded⟩
  · rintro ⟨content, valid, there, decoded⟩
    exact ⟨_, ⟨content, Store.content_eq_ok_iff.mpr ⟨valid, there⟩, rfl⟩, decoded⟩

theorem byGeneration_perm (segments : List Segment) : (byGeneration segments).Perm segments :=
  List.mergeSort_perm segments _

/-- The segments in the announced files, as they are stored now. -/
def Receiver.staged (receiver : Receiver) : Except Error (List Segment) :=
  (receiver.target.stagedNames.filter (isSegmentName ·.1)).mapM fun file =>
    readSegment receiver.copy.store file.2

namespace Receiving

theorem start_stagedSegment {file : String × String} {segment : Segment} {receiver : Receiver}
    (read : readSegment receiver.copy.store file.2 = .ok segment) :
    (stagedSegment file).start receiver = (.ok segment, receiver) := by
  simp only [readSegment, bind_eq_ok_iff, mapError_eq_ok_iff] at read
  obtain ⟨content, found, decoded⟩ := read
  unfold stagedSegment
  rw [start_get_bind, start_bind, start_check, found]
  simp only [Except.mapError, decoded]
  rfl

theorem start_mapM_stagedSegment {files : List (String × String)} {segments : List Segment}
    {receiver : Receiver}
    (staged : files.mapM (fun file => readSegment receiver.copy.store file.2) = .ok segments) :
    (files.mapM stagedSegment).start receiver = (.ok segments, receiver) := by
  induction mapM_eq_ok_iff.mp staged with
  | nil => rfl
  | cons read others ih =>
      rw [List.mapM_cons, start_bind_of_ok (start_stagedSegment read),
        start_bind_of_ok (ih (mapM_eq_ok_iff.mpr others))]
      rfl

/-- A transfer whose files are all there is completed if the engine takes their segments. -/
theorem start_filesComplete {startSeqNo : Int64} {totalOps : UInt32} {receiver : Receiver}
    {segments : List Segment} {engine : Engine} (inFiles : receiver.phase = .files)
    (verified : receiver.target.checkVerified = .ok ())
    (total : totalOps.toNat = receiver.target.totalOps) (staged : receiver.staged = .ok segments)
    (prepared : receiver.copy.engine.prepare (byGeneration segments) = .ok engine) :
    ∃ final, (filesComplete startSeqNo totalOps).start receiver = (.ok .ack, final) := by
  have expected : receiver.target.progress.expect .files = .ok () := if_pos inFiles
  have counted : receiver.target.checkTotal totalOps = .ok () := if_pos total
  have may : receiver.target.progress.phase.mayBecome .ops = true :=
    (congrArg (·.mayBecome .ops) inFiles).trans rfl
  unfold filesComplete
  rw [start_get_bind, start_bind, start_check, expected]
  dsimp only
  rw [start_bind, start_check, verified]
  dsimp only
  rw [start_bind, start_check, counted]
  dsimp only
  rw [start_bind_of_ok (start_mapM_stagedSegment staged), start_get_bind, start_bind, start_check,
    prepared]
  dsimp only [Except.mapError]
  rw [start_bind_of_ok (start_setEngine _ _), start_bind_of_ok (start_modifyTarget _ _),
    start_bind_of_ok (start_transition (by exact may)), start_bind_of_ok (start_log _ _ _),
    start_bind_of_ok (start_log _ _ _)]
  exact ⟨_, rfl⟩

/-- Completing the transfer gives the engine the staged segments and sets the
cursor. Of the receiver it changes nothing else but the journal. -/
theorem filesComplete_ok {startSeqNo : Int64} {totalOps : UInt32} {reply : Reply}
    {receiver final : Receiver}
    (ran : (filesComplete startSeqNo totalOps).start receiver = (.ok reply, final)) :
    receiver.phase = .files ∧ reply = .ack ∧ receiver.target.checkVerified = .ok () ∧
      totalOps.toNat = receiver.target.totalOps ∧ ∃ segments engine, receiver.staged = .ok segments ∧
        receiver.copy.engine.prepare (byGeneration segments) = .ok engine ∧
        final.copy = { receiver.copy with engine } ∧
        final.target = { receiver.target with
          hasStaged := true
          resolver := {}
          nextSeqNo := startSeqNo
          progress.phase := .ops } ∧
        final.journal.metrics = receiver.journal.metrics := by
  unfold filesComplete at ran
  rw [start_get_bind] at ran
  obtain ⟨_, expected, ran⟩ := check_bind_ok ran
  obtain ⟨_, verified, ran⟩ := check_bind_ok ran
  obtain ⟨_, total, ran⟩ := check_bind_ok ran
  obtain ⟨segments, between, read, ran⟩ := bind_ok ran
  obtain ⟨staged, unchanged⟩ := mapM_stagedSegment_ok read
  rw [unchanged, start_get_bind] at ran
  obtain ⟨engine, prepared, ran⟩ := check_bind_ok ran
  rw [start_bind_of_ok (start_setEngine _ _), start_bind_of_ok (start_modifyTarget _ _)] at ran
  obtain ⟨_, moved, first, ran⟩ := bind_ok ran
  obtain ⟨_, same⟩ := transition_ok first
  rw [start_bind_of_ok (start_log _ _ _), start_bind_of_ok (start_log _ _ _), start_pure] at ran
  simp only [Prod.mk.injEq, Except.ok.injEq] at ran
  have total : totalOps.toNat = receiver.target.totalOps := by
    unfold Target.checkTotal at total
    split at total
    · next same => exact same
    · cases total
  refine ⟨Progress.expect_ok expected, ran.1.symm, verified, total, segments, engine, staged,
    mapError_eq_ok_iff.mp prepared, ?_⟩
  rw [← ran.2, same]
  exact ⟨rfl, rfl, rfl⟩

end Receiving

/-- The files to receive: their live names, and the names they are stored under. -/
def Target.received (target : Target) : List (String × String) :=
  target.incoming.toList.map fun (name, incoming) => (name, incoming.tempName)

namespace Receiving

theorem start_forM_sync (files : List (String × Incoming)) (receiver : Receiver) :
    (files.forM fun (_, incoming) => do
        check (((← get).copy.store.sync incoming.tempName).mapError Error.ofStore)).start
        receiver =
      ((((files.map fun (name, incoming) => (name, incoming.tempName)).forM fun file =>
        receiver.copy.store.sync file.2)).mapError Error.ofStore, receiver) := by
  induction files with
  | nil => rfl
  | cons file files ih =>
      rw [List.map_cons, List.forM_eq_forM, List.forM_eq_forM, List.forM_cons, List.forM_cons,
        start_bind, start_get_bind, start_check]
      cases synced : receiver.copy.store.sync file.2.tempName with
      | error error => rfl
      | ok done => exact ih

theorem start_forM_rename (files : List (String × Incoming)) (receiver : Receiver) :
    (files.forM fun (name, incoming) =>
        onStore fun store => store.rename incoming.tempName name).start receiver =
      ((receiver.copy.store.renameAll
          (files.map fun (name, incoming) => (name, incoming.tempName))).1.mapError Error.ofStore,
        { receiver with
          copy.store := (receiver.copy.store.renameAll
            (files.map fun (name, incoming) => (name, incoming.tempName))).2 }) := by
  induction files generalizing receiver with
  | nil => rfl
  | cons file files ih =>
      rw [List.map_cons, List.forM_eq_forM, List.forM_cons, start_bind, start_onStore]
      cases renamed : receiver.copy.store.rename file.2.tempName file.1 with
      | error error => simp only [Store.renameAll, renamed]; rfl
      | ok store =>
          simp only [Store.renameAll, renamed]
          exact ih _

/-- Finalizing a recovery that has replayed its operations promotes the
received files, and nothing else can fail. -/
theorem start_finalize {receiver : Receiver} (inOps : receiver.phase = .ops)
    (recovered : receiver.target.opsRecovered = receiver.target.totalOps)
    (globalCheckpoint : Int64) :
    ∃ journal, journal.metrics = receiver.journal.metrics ∧
      (finalize globalCheckpoint).start receiver =
        match receiver.copy.store.promote receiver.target.received
          receiver.target.announcedNames with
        | (.ok _, store) =>
            (.ok (.finalizeAck receiver.target.localCheckpoint),
              { target := { receiver.target with
                  progress.phase := .done, globalCheckpoint? := some globalCheckpoint }
                copy := { receiver.copy with store }, journal })
        | (.error error, store) =>
            (.error (.ofStore error),
              { target := { receiver.target with progress.phase := .finalize }
                copy := { receiver.copy with store }, journal }) := by
  have expected : receiver.target.progress.expect .ops = .ok () := if_pos inOps
  have complete : receiver.target.checkRecovered = .ok () := if_pos recovered
  have begins : receiver.target.progress.phase.mayBecome .finalize = true := by
    rw [show receiver.target.progress.phase = .ops from inOps]
    rfl
  have received : (receiver.target.incoming.toList.map fun (name, incoming) =>
      (name, incoming.tempName)) = receiver.target.received := rfl
  unfold finalize
  rw [start_get_bind]
  dsimp only
  rw [expected, start_bind_of_ok (start_check _ _), complete, start_bind_of_ok (start_check _ _),
    start_bind_of_ok (start_transition begins), start_bind_of_ok (start_log _ _ _), start_bind,
    start_forM_sync, received]
  unfold Store.promote
  cases receiver.target.received.forM fun file => receiver.copy.store.sync file.2 with
  | error error => exact ⟨_, by rfl, rfl⟩
  | ok done =>
      dsimp only [Except.mapError]
      rw [start_bind, start_forM_rename, received]
      dsimp only
      cases receiver.copy.store.renameAll receiver.target.received with
      | mk outcome renamed =>
          cases outcome with
          | error error => exact ⟨_, by rfl, rfl⟩
          | ok done =>
              dsimp only [Except.mapError]
              rw [start_bind, start_throughStore]
              dsimp only
              cases renamed.removeStale receiver.target.announcedNames with
              | mk outcome store =>
                  cases outcome with
                  | error error => exact ⟨_, by rfl, rfl⟩
                  | ok removed => exact ⟨_, by rfl, rfl⟩

/-- A recovery that is not in the right phase, or lacks operations, is not finalized. -/
theorem finalize_refused {receiver : Receiver}
    (unready : ¬ (receiver.phase = .ops ∧
      receiver.target.opsRecovered = receiver.target.totalOps))
    (globalCheckpoint : Int64) :
    ∃ error, (finalize globalCheckpoint).start receiver = (.error error, receiver) := by
  unfold finalize
  rw [start_get_bind]
  dsimp only
  rw [start_bind, start_check]
  by_cases inOps : receiver.phase = .ops
  · have expected : receiver.target.progress.expect .ops = .ok () := if_pos inOps
    have recovered : receiver.target.opsRecovered ≠ receiver.target.totalOps :=
      fun same => unready ⟨inOps, same⟩
    rw [expected]
    dsimp only
    rw [start_bind, start_check, Target.checkRecovered, if_neg recovered]
    exact ⟨_, rfl⟩
  · have unexpected : ∃ error, receiver.target.progress.expect .ops = .error error :=
      ⟨_, if_neg inOps⟩
    obtain ⟨error, unexpected⟩ := unexpected
    rw [unexpected]
    exact ⟨error, rfl⟩

/-- All of a receiver but what the replay of operations changes: the cursor, the
counts, the memory of searches, the engine and the journal. -/
def besidesOps (receiver : Receiver) : Receiver where
  target := { receiver.target with
    resolver := {}, nextSeqNo := 0, opsRecovered := 0
    progress := { receiver.target.progress with opsRecovered := 0, opsSkipped := 0 } }
  copy := { receiver.copy with engine := {} }

theorem besidesOps_isHeld (segments : List Segment) (operation : Operation) :
    Keeps besidesOps (isHeld segments operation) := by
  refine .bind .get fun receiver => .ite (.pure true) ?_
  cases operation.id? with
  | none => exact .pure false
  | some id =>
      refine .bind (.modifyTarget fun _ => rfl) fun _ => ?_
      exact .bind (.check _) fun _ => .pure _

theorem besidesOps_replayOne (segments : List Segment) (tally : Tally) (operation : Operation) :
    Keeps besidesOps (replayOne segments tally operation) := by
  refine .bind .get fun receiver => .ite (.pure tally) ?_
  refine .ite (.throw_bind _ _) (.ite (.throw_bind _ _) ?_)
  refine .bind (besidesOps_isHeld segments operation) fun held => .ite ?_ ?_
  · refine .bind .get fun receiver => .bind (.setEngine fun _ => rfl) fun _ => ?_
    exact .bind (.check _) fun _ => .bind (.modifyTarget fun _ => rfl) fun _ => .pure _
  · exact .bind (.modifyTarget fun _ => rfl) fun _ => .pure _

theorem besidesOps_replay (operations : List Operation) (totalOps : UInt32) :
    Keeps besidesOps (replay operations totalOps) := by
  refine .bind .get fun receiver => .bind (.check _) fun _ => .bind (.check _) fun _ => ?_
  refine .bind (.foldlM (besidesOps_replayOne _) operations {}) fun tally => ?_
  refine .bind .get fun _ => .bind (.check _) fun _ => .bind (.setEngine fun _ => rfl) fun _ => ?_
  refine .bind (.modifyProgress fun _ => rfl) fun _ => .bind (.count fun _ => rfl) fun _ => ?_
  exact .bind .get fun _ => .bind (.log fun _ _ => rfl) fun _ => .pure _

theorem replay_ok_phase {operations : List Operation} {totalOps : UInt32} {reply : Reply}
    {receiver final : Receiver}
    (ran : (replay operations totalOps).start receiver = (.ok reply, final)) :
    receiver.phase = .ops ∧ final.phase = .ops := by
  have kept := ((besidesOps_replay operations totalOps).part Receiver.phase).of_ok ran
  unfold replay at ran
  rw [start_get_bind] at ran
  obtain ⟨_, expected, _⟩ := check_bind_ok ran
  have before : receiver.phase = .ops := Progress.expect_ok expected
  exact ⟨before, kept.trans before⟩

/-- A phase that is entered is entered by a recovery that is going on. -/
theorem isOver_transition {phase : Phase} (lasting : phase.isTerminal = false) :
    Keeps Receiver.isOver (transition phase) := by
  refine .transition fun receiver may => ?_
  have before : receiver.target.progress.phase.isTerminal = false := by
    cases which : receiver.target.progress.phase <;>
      cases phase <;> simp_all [Phase.mayBecome, Phase.isTerminal]
  exact lasting.trans before.symm

theorem isOver_stage (file : String × UInt64) : Keeps Receiver.isOver (stage file) :=
  (besidesFiles_stage file).part Receiver.isOver

theorem isOver_announce (announcement : Announcement) (totalOps : UInt32) :
    Keeps Receiver.isOver (announce announcement totalOps) := by
  refine .bind .get fun receiver => .bind (.check _) fun _ => .bind (.check _) fun bytes => ?_
  refine .bind (.forM fun file _ => isOver_stage file) fun _ => ?_
  refine .bind (.modifyTarget fun _ => rfl) fun _ => .bind (.modifyProgress fun _ => rfl) fun _ => ?_
  exact .bind (isOver_transition rfl) fun _ => .bind (.log fun _ _ => rfl) fun _ => .pure _

theorem isOver_filesComplete (startSeqNo : Int64) (totalOps : UInt32) :
    Keeps Receiver.isOver (filesComplete startSeqNo totalOps) := by
  have staged (file : String × String) : Keeps Receiver.isOver (stagedSegment file) := by
    refine .bind .get fun receiver => .bind (.check _) fun content => ?_
    cases Segment.decode content with
    | ok segment => exact .pure segment
    | error error => exact .bind (.log fun _ _ => rfl) fun _ => .throw _
  refine .bind .get fun receiver => .bind (.check _) fun _ => .bind (.check _) fun _ => ?_
  refine .bind (.check _) fun _ => .bind (.mapM fun file _ => staged file) fun segments => ?_
  refine .bind .get fun _ => .bind (.check _) fun _ => .bind (.setEngine fun _ => rfl) fun _ => ?_
  refine .bind (.modifyTarget fun _ => rfl) fun _ => .bind (isOver_transition rfl) fun _ => ?_
  exact .bind (.log fun _ _ => rfl) fun _ => .bind (.log fun _ _ => rfl) fun _ => .pure _

/-- A command that fails has not ended the recovery. -/
theorem isOver_perform {command : Command} {error : Error} {receiver final : Receiver}
    (going : receiver.isOver = false)
    (ran : command.perform.start receiver = (.error error, final)) : final.isOver = false := by
  have same {step : Receiving Reply} (kept : Keeps Receiver.isOver step)
      (ran : step.start receiver = (.error error, final)) : final.isOver = false := by
    have kept := kept receiver
    rw [ran] at kept
    exact kept.trans going
  cases command with
  | announce announcement totalOps => exact same (isOver_announce announcement totalOps) ran
  | transfer chunk totalOps =>
      exact same ((besidesFiles_transfer chunk).part Receiver.isOver) ran
  | filesComplete startSeqNo totalOps => exact same (isOver_filesComplete startSeqNo totalOps) ran
  | replay operations totalOps =>
      exact same ((besidesOps_replay operations totalOps).part Receiver.isOver) ran
  | finalize globalCheckpoint =>
      change (finalize globalCheckpoint).start receiver = _ at ran
      by_cases ready : receiver.phase = .ops ∧
          receiver.target.opsRecovered = receiver.target.totalOps
      · obtain ⟨journal, _, outcome⟩ := start_finalize ready.1 ready.2 globalCheckpoint
        rw [outcome] at ran
        split at ran
        · cases ran
        · cases ran
          rfl
      · obtain ⟨refusal, outcome⟩ := finalize_refused ready globalCheckpoint
        rw [outcome] at ran
        cases ran
        exact going

end Receiving

namespace Receiving

/-- What no step changes of a target: which recovery of which shard it is for, whether it
was cancelled, and why it has failed. -/
def enduring (receiver : Receiver) : Int64 × ShardId × Bool × Option String :=
  (receiver.target.recovery, receiver.target.shard, receiver.target.progress.isCancelled,
    receiver.target.progress.failure?)

theorem enduring_perform (command : Command) : Keeps enduring command.perform := by
  cases command with
  | announce announcement totalOps =>
      refine .bind .get fun _ => .bind (.check _) fun _ => .bind (.check _) fun _ => ?_
      refine .bind (.forM fun file _ => (besidesFiles_stage file).part enduring) fun _ => ?_
      refine .bind (.modifyTarget fun _ => rfl) fun _ => .bind (.modifyProgress fun _ => rfl) ?_
      intro _
      exact .bind (.transition fun _ _ => rfl) fun _ => .bind (.log fun _ _ => rfl) fun _ => .pure _
  | transfer chunk totalOps => exact (besidesFiles_transfer chunk).part enduring
  | filesComplete startSeqNo totalOps =>
      have staged (file : String × String) : Keeps enduring (stagedSegment file) := by
        refine .bind .get fun receiver => .bind (.check _) fun content => ?_
        cases Segment.decode content with
        | ok segment => exact .pure segment
        | error error => exact .bind (.log fun _ _ => rfl) fun _ => .throw _
      refine .bind .get fun _ => .bind (.check _) fun _ => .bind (.check _) fun _ => ?_
      refine .bind (.check _) fun _ => .bind (.mapM fun file _ => staged file) fun _ => ?_
      refine .bind .get fun _ => .bind (.check _) fun _ => .bind (.setEngine fun _ => rfl) ?_
      intro _
      refine .bind (.modifyTarget fun _ => rfl) fun _ => .bind (.transition fun _ _ => rfl) ?_
      intro _
      exact .bind (.log fun _ _ => rfl) fun _ => .bind (.log fun _ _ => rfl) fun _ => .pure _
  | replay operations totalOps => exact (besidesOps_replay operations totalOps).part enduring
  | finalize globalCheckpoint =>
      intro receiver
      change enduring ((finalize globalCheckpoint).start receiver).2 = enduring receiver
      by_cases ready : receiver.phase = .ops ∧
          receiver.target.opsRecovered = receiver.target.totalOps
      · obtain ⟨journal, _, outcome⟩ := start_finalize ready.1 ready.2 globalCheckpoint
        rw [outcome]
        split
        · rfl
        · rfl
      · obtain ⟨refusal, outcome⟩ := finalize_refused ready globalCheckpoint
        rw [outcome]

end Receiving

namespace Command

/-- The phase in which a command can be performed. -/
def needs : Command → Phase
  | .announce _ _ => .init
  | .transfer _ _ => .files
  | .filesComplete _ _ => .files
  | .replay _ _ => .ops
  | .finalize _ => .ops

/-- The phase that a command which succeeds leaves behind. -/
def leadsTo : Command → Phase
  | .announce _ _ => .files
  | .transfer _ _ => .files
  | .filesComplete _ _ => .ops
  | .replay _ _ => .ops
  | .finalize _ => .done

theorem phase_of_ok {command : Command} {reply : Reply} {receiver final : Receiver}
    (ran : command.perform.start receiver = (.ok reply, final)) :
    receiver.phase = command.needs ∧ final.phase = command.leadsTo := by
  cases command with
  | announce announcement totalOps =>
      obtain ⟨before, _, bytes, between, _, _, _, same⟩ := Receiving.announce_ok ran
      exact ⟨before, by simp [Receiver.phase, same, leadsTo]⟩
  | transfer chunk totalOps => exact Receiving.transfer_ok ran
  | filesComplete startSeqNo totalOps =>
      obtain ⟨before, _, _, _, _, _, _, _, _, same, _⟩ := Receiving.filesComplete_ok ran
      exact ⟨before, by simp [Receiver.phase, same, leadsTo]⟩
  | replay operations totalOps => exact Receiving.replay_ok_phase ran
  | finalize globalCheckpoint =>
      change (Receiving.finalize globalCheckpoint).start receiver = _ at ran
      by_cases ready : receiver.phase = .ops ∧
          receiver.target.opsRecovered = receiver.target.totalOps
      · obtain ⟨journal, _, outcome⟩ := Receiving.start_finalize ready.1 ready.2 globalCheckpoint
        rw [outcome] at ran
        split at ran
        · cases ran
          exact ⟨ready.1, rfl⟩
        · cases ran
      · obtain ⟨refusal, outcome⟩ := Receiving.finalize_refused ready globalCheckpoint
        rw [outcome] at ran
        cases ran

end Command

namespace Receiver

theorem phase_fail {command : Command} {error : Error} {receiver between : Receiver}
    (going : receiver.isOver = false)
    (ran : command.perform.start receiver = (.error error, between)) (reported : Error) :
    (between.fail reported).phase = .failed :=
  phase_abort (Receiving.isOver_perform going ran) ..

end Receiver

end ShardSync.Recovery
