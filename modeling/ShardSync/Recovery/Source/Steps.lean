import ShardSync.Recovery.Source.Basic

/-!
# The steps of a session

What a session sends when its turn comes and whenever a request has been
answered: the announcement, the chunks of all files, the end of the files, the
operations batch by batch, and at last the request to finish.
-/

set_option autoImplicit false

namespace ShardSync.Recovery.Sending

def sendFinalize : Sending Unit := do
  transition .finalize
  openScope "RECOVERY_FINALIZE"
  let delivery := (← get).delivery
  let request ← request (.finalize (.ofInt delivery.agenda.globalCheckpoint))
  setStage .finalizing
  send request delivery.settings.longTimeout

/-- Sends the next batch. Behind the last batch comes a gap or the end. -/
def sendBatch (rest : Batches) : Sending Unit := do
  match rest.batches with
  | batch :: batches =>
      checkCancelled
      let delivery := (← get).delivery
      let request ← request (.replay batch delivery.agenda.totalOps)
      setStage (.replaying batch { rest with batches })
      send request delivery.settings.timeout
  | [] =>
      match rest.gap? with
      | some gap => throw (.sequenceGap gap.expected gap.actual)
      | none =>
          let recovered := (← get).delivery.session.progress.opsRecovered
          closeScope [("ops", toString recovered)]
          sendFinalize

def sendOperations : Sending Unit := do
  transition .ops
  openScope "RECOVERY_OPS"
  sendBatch (← get).delivery.agenda.batches

def sendFilesComplete : Sending Unit := do
  let delivery := (← get).delivery
  let request ←
    request (.filesComplete delivery.session.startSeqNo delivery.agenda.totalOps)
  setStage .completing
  send request delivery.settings.timeout

/-- Prepares chunks and sends them while there is room. The first for which
there is no room is kept ready. -/
def sendPieces : List Piece → Sending Unit
  | [] => do
      if (← get).delivery.outstanding.isEmpty then sendFilesComplete
      else setStage (.sending none [])
  | piece :: pieces => do
      checkCancelled
      let sender ← get
      let chunk ← check ((piece.chunk sender.source.store).mapError Error.ofStore)
      let request ← request (.transfer chunk sender.delivery.agenda.totalOps)
      if sender.delivery.outstanding.length < sender.delivery.window then
        send request sender.delivery.settings.timeout
        sendPieces pieces
      else setStage (.sending (some request) pieces)

/-- Sends the chunk that is ready, and what follows it. -/
def resumePieces (ready? : Option Request) (pieces : List Piece) : Sending Unit := do
  match ready? with
  | none => pure ()
  | some request => send request (← get).delivery.settings.timeout
  sendPieces pieces

def sendFiles : Sending Unit := do
  transition .files
  openScope "RECOVERY_FILES"
  let delivery := (← get).delivery
  let inventory := delivery.agenda.inventory
  let totalOps := delivery.agenda.totalOps
  modifyProgress fun progress =>
    { progress.setFileTotals inventory.totalFiles inventory.alreadyPresent.length
        inventory.totalBytes inventory.bytesReused with
      opsTotal := totalOps.toNat }
  count fun metrics =>
    { metrics with filesReused := metrics.filesReused + inventory.alreadyPresent.length }
  let announcement : Announcement := {
    names := inventory.toSend.map (·.name)
    sizes := inventory.toSend.map (·.length)
    existingNames := inventory.alreadyPresent.map (·.name)
    existingSizes := inventory.alreadyPresent.map (·.length) }
  let request ← request (.announce announcement totalOps)
  setStage .announcing
  send request delivery.settings.timeout

def pinFiles : Sending (List FileMetadata) := do
  let (snapshot, store) ← check ((← get).source.store.takeSnapshot.mapError Error.ofStore)
  modify fun sender => { sender with source.store := store }
  modifyDelivery fun delivery => { delivery with snapshot? := some snapshot }
  return snapshot.files

/-- What has to be sent, if the source holds the given files. -/
def plan (sender : Sender) (files : List FileMetadata) : Except Error Agenda :=
  let delivery := sender.delivery
  let translog := sender.source.translog
  let startSeqNo := delivery.session.startSeqNo
  let operations := translog.range startSeqNo translog.maxSeqNo
  if operations.length < UInt32.size then
    .ok {
      inventory := .diff files delivery.start.files
      totalOps := .ofNat operations.length
      batches := .ofHistory delivery.settings startSeqNo.toInt operations
      globalCheckpoint := max translog.maxSeqNo.toInt (startSeqNo.toInt - 1) }
  else .error (.protocolViolation s!"{operations.length} operations exceed one recovery")

/-- The first step of a session whose turn has come. -/
def begin : Sending Unit := do
  let files ← pinFiles
  checkCancelled
  let agenda ← check (plan (← get) files)
  modifyDelivery fun delivery => { delivery with agenda }
  sendFiles

/-- A chunk has been acknowledged. -/
def countChunk (chunk : Chunk) : Sending Unit := do
  let bytes := chunk.content.length
  let files := if chunk.isLast then 1 else 0
  modifyProgress fun progress =>
    { progress with
      bytesTransferred := progress.bytesTransferred + bytes
      filesSent := progress.filesSent + files }
  count fun metrics =>
    { metrics with
      bytesSent := metrics.bytesSent + bytes
      filesSent := metrics.filesSent + files }

/-- Accepts the reply to a chunk: an acknowledgement of its position. -/
def acceptChunk (request : Request) (reply : Reply) : Sending Unit := do
  match request, reply with
  | .step _ _ _ (.transfer chunk _), .chunkAck position =>
      if position = chunk.position then countChunk chunk
      else throw (reply.unexpected "file chunk")
  | _, _ => throw (reply.unexpected "file chunk")

/-- Accepts the reply to a batch: a checkpoint that is not before its end. -/
def acceptBatch (batch : List Operation) (reply : Reply) : Sending Unit := do
  let last := (batch.getLast?.map (·.seqNo)).getD noOperations
  match reply with
  | .opsAck checkpoint =>
      if checkpoint < last then
        throw <| .protocolViolation <|
          s!"target checkpoint {checkpoint} behind acknowledged batch ending at {last}"
      modifyProgress fun progress =>
        { progress with opsRecovered := progress.opsRecovered + batch.length }
  | _ => throw (reply.unexpected "translog ops")

/-- All files are there. -/
def closeFiles : Sending Unit := do
  let inventory := (← get).delivery.agenda.inventory
  closeScope [("files_sent", toString inventory.toSend.length),
    ("files_reused", toString inventory.alreadyPresent.length),
    ("bytes_sent", toString inventory.bytesToSend)]

/-- Goes on after the reply to a request. The result is the target's checkpoint
if that was the last request. -/
def proceed (request : Request) (reply : Reply) : Sending (Option Int64) := do
  let delivery := (← get).delivery
  match delivery.stage, reply with
  | .announcing, .ack =>
      sendPieces (delivery.agenda.inventory.toSend.flatMap (Piece.cut delivery.settings.chunkSize))
      return none
  | .sending ready? pieces, _ => do
      acceptChunk request reply
      resumePieces ready? pieces
      return none
  | .completing, .ack => do
      closeFiles
      sendOperations
      return none
  | .replaying batch rest, _ => do
      acceptBatch batch reply
      sendBatch rest
      return none
  | .finalizing, .finalizeAck checkpoint => do
      transition .done
      closeScope [("local_checkpoint", toString checkpoint)]
      return some checkpoint
  | .finalizing, _ => throw (reply.unexpected "finalize")
  | _, _ => throw (reply.unexpected "ack")

end ShardSync.Recovery.Sending
