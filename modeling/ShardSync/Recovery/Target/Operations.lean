import ShardSync.Recovery.Target.Basic

/-!
# Replaying operations

When all files are there, the engine is given their segments and operations
are replayed from the announced sequence number on. They have to come in
sequence. One that comes again is passed over; one that leaves a gap fails the
recovery. An operation that the segments hold already, or a newer one on the
same document, is counted and not applied.
-/

set_option autoImplicit false

namespace ShardSync.Recovery

namespace Target

/-- Refuses to complete the transfer while a file is not verified. -/
def checkVerified (target : Target) : Except Error Unit :=
  match target.incoming.toList.find? (!·.2.isVerified) with
  | some (name, _) =>
      .error (.protocolViolation s!"files complete but [{name}] was not fully received")
  | none => .ok ()

/-- Refuses a number of operations that is not the announced one. -/
def checkTotal (target : Target) (totalOps : UInt32) : Except Error Unit :=
  if totalOps.toNat = target.totalOps then .ok ()
  else .error <| .protocolViolation <|
    s!"total operations changed from {target.totalOps} to {totalOps}"

/-- All files of the shard: their live names, and the names they are stored
under. Received files come first. -/
def stagedNames (target : Target) : List (String × String) :=
  (target.incoming.toList.map fun (name, incoming) => (name, incoming.tempName)) ++
    target.existing.map fun name => (name, name)

end Target

namespace Receiving

/-- The segment that a file holds. One that contradicts itself is logged. -/
def stagedSegment (file : String × String) : Receiving Segment := do
  let content ← check (((← get).copy.store.read file.2).mapError Error.ofStore)
  match Segment.decode content with
  | .ok segment => return segment
  | .error error =>
      log .inconsistentSegment [("file", file.1), ("reason", error.message)]
      throw (.ofSegment error)

/-- Hands the segments of all files to the engine and opens the replay. -/
def filesComplete (startSeqNo : Int64) (totalOps : UInt32) : Receiving Reply := do
  let target := (← get).target
  check (target.progress.expect .files)
  check target.checkVerified
  check (target.checkTotal totalOps)
  let segments ← (target.stagedNames.filter (isSegmentName ·.1)).mapM stagedSegment
  setEngine (← check
    (((← get).copy.engine.prepare (byGeneration segments)).mapError Error.ofEngine))
  modifyTarget fun target =>
    { target with hasStaged := true, resolver := {}, nextSeqNo := startSeqNo }
  transition .ops
  log .filesComplete []
  log .opsBegin [("start_seq_no", toString startSeqNo), ("total_ops", toString totalOps)]
  return .ack

/-- Whether the shard reflects an operation already: the engine has processed
its sequence number, or `segments` hold its document with the same sequence
number or a higher one. -/
def isHeld (segments : List Segment) (operation : Operation) : Receiving Bool := do
  let receiver ← get
  if receiver.copy.engine.hasProcessed operation.seqNo.toInt then return true
  else
    match operation.id? with
    | none => return false
    | some id =>
        let (outcome, resolver) := receiver.target.resolver.seqNo segments (Text.Utf8.encode id)
        modifyTarget fun target => { target with resolver }
        let hit? ← check (outcome.mapError Error.ofSegment)
        return hit?.any (operation.seqNo ≤ ·.seqNo)

/-- How often operations were applied, and how often they were held already. -/
structure Tally where
  applied : Nat := 0
  skipped : Nat := 0
deriving Repr, DecidableEq

/-- Replays the next operation, unless it came before. -/
def replayOne (segments : List Segment) (tally : Tally) (operation : Operation) :
    Receiving Tally := do
  let target := (← get).target
  if operation.seqNo < target.nextSeqNo then return tally
  else
    if target.nextSeqNo < operation.seqNo then
      throw (.sequenceGap target.nextSeqNo.toInt operation.seqNo.toInt)
    if target.totalOps ≤ target.opsRecovered then
      throw <| .protocolViolation <|
        s!"operation {operation.seqNo} exceeds the announced total of {target.totalOps}"
    let held ← isHeld segments operation
    if !held then
      let (outcome, engine) := (← get).copy.engine.apply operation
      setEngine engine
      check (outcome.mapError Error.ofEngine)
    modifyTarget fun target =>
      { target with
        nextSeqNo := target.nextSeqNo + 1
        opsRecovered := target.opsRecovered + 1 }
    return if held then { tally with skipped := tally.skipped + 1 }
      else { tally with applied := tally.applied + 1 }

/-- Replays a batch. Whether an operation is held is decided by the segments
that the engine had before the batch. -/
def replay (operations : List Operation) (totalOps : UInt32) : Receiving Reply := do
  let receiver ← get
  check (receiver.target.progress.expect .ops)
  check (receiver.target.checkTotal totalOps)
  let tally ← operations.foldlM (replayOne receiver.copy.engine.segments) {}
  setEngine (← check ((← get).copy.engine.refresh.mapError Error.ofEngine))
  modifyProgress fun progress =>
    { progress with
      opsRecovered := progress.opsRecovered + (tally.applied + tally.skipped)
      opsSkipped := progress.opsSkipped + tally.skipped }
  count fun metrics =>
    { metrics with
      opsReplayed := metrics.opsReplayed + tally.applied
      opsSkipped := metrics.opsSkipped + tally.skipped }
  let checkpoint := (← get).target.localCheckpoint
  log .opsBatch [("applied", toString tally.applied), ("skipped", toString tally.skipped),
    ("local_checkpoint", toString checkpoint)]
  return .opsAck checkpoint

end Receiving

end ShardSync.Recovery
