import ShardSync.Node
import ShardSync.Recovery.Error
import ShardSync.Store.Metadata
import ShardSync.Translog.Operation

/-!
# Messages of a recovery

The target asks for a recovery with a start message. From then on the source
sends requests and the target answers each of them. A request or a reply is a
tag followed by its fields, and has to take up all of its bytes.
-/

set_option autoImplicit false

namespace ShardSync.Recovery

open Wire

/-- The target's wish to be brought in line with the source. -/
structure StartRequest where
  recovery : Int64
  shard : ShardId
  source : NodeId
  target : NodeId
  /-- The files that the target holds already. -/
  files : List FileMetadata
  /-- The first sequence number that the target lacks. -/
  startSeqNo : Int64
deriving Repr, DecidableEq

namespace StartRequest

def write (request : StartRequest) : Bytes :=
  Write.i64 request.recovery ++ request.shard.write ++ request.source.write ++
    request.target.write ++ Write.list FileMetadata.write request.files ++
    Write.i64 request.startSeqNo

def read : Reader StartRequest := do
  return {
    recovery := ← Reader.i64
    shard := ← ShardId.read
    source := ← NodeId.read
    target := ← NodeId.read
    files := ← Reader.list "metadata snapshot" FileMetadata.leastBytes FileMetadata.read
    startSeqNo := ← Reader.i64 }

def decode (input : Bytes) : Except DecodeError StartRequest := Reader.decode read input

end StartRequest

/-- The files of a recovery: those that will be sent, and those that the
target holds already. -/
structure Announcement where
  names : List String
  sizes : List UInt64
  existingNames : List String
  existingSizes : List UInt64
deriving Repr, DecidableEq

namespace Announcement

def write (announcement : Announcement) : Bytes :=
  Write.list Write.text announcement.names ++ Write.list Write.vlong announcement.sizes ++
    Write.list Write.text announcement.existingNames ++
    Write.list Write.vlong announcement.existingSizes

def read : Reader Announcement := do
  return {
    names := ← Reader.list "phase1 file names" 1 Reader.text
    sizes := ← Reader.list "phase1 file sizes" 1 Reader.vlong
    existingNames := ← Reader.list "phase1 existing file names" 1 Reader.text
    existingSizes := ← Reader.list "phase1 existing file sizes" 1 Reader.vlong }

end Announcement

/-- A run of bytes of one file. -/
structure Chunk where
  file : FileMetadata
  position : UInt64
  content : Bytes
  isLast : Bool
  /-- The checksum of the content of this chunk. -/
  checksum : UInt32
deriving Repr, DecidableEq

namespace Chunk

def write (chunk : Chunk) : Bytes :=
  chunk.file.write ++ Write.vlong chunk.position ++ Write.bytes chunk.content ++
    Write.bool chunk.isLast ++ Write.u32 chunk.checksum

def read : Reader Chunk := do
  return {
    file := ← FileMetadata.read
    position := ← Reader.vlong
    content := ← Reader.bytes
    isLast := ← Reader.bool
    checksum := ← Reader.u32 }

end Chunk

/-- The number of operations that will be replayed. It is written with all of
its bits and read as a number below `2 ^ 31`. -/
def writeTotal (total : UInt32) : Bytes := Write.count total.toNat

def readTotal : Reader UInt32 := do
  return UInt32.ofNat (← Reader.natural)

/-- A step of the recovery. -/
inductive Command where
  | announce (announcement : Announcement) (totalOps : UInt32)
  | transfer (chunk : Chunk) (totalOps : UInt32)
  /-- All files are sent; operations start at `startSeqNo`. -/
  | filesComplete (startSeqNo : Int64) (totalOps : UInt32)
  /-- A run of operations in increasing order. -/
  | replay (operations : List Operation) (totalOps : UInt32)
  | finalize (globalCheckpoint : Int64)
deriving Repr, DecidableEq

namespace Command

def action : Command → String
  | .announce _ _ => "files_info"
  | .transfer _ _ => "file_chunk"
  | .filesComplete _ _ => "files_complete"
  | .replay _ _ => "translog_ops"
  | .finalize _ => "finalize"

def tag : Command → UInt8
  | .announce _ _ => 1
  | .transfer _ _ => 2
  | .filesComplete _ _ => 3
  | .replay _ _ => 4
  | .finalize _ => 5

def write : Command → Bytes
  | .announce announcement totalOps => announcement.write ++ writeTotal totalOps
  | .transfer chunk totalOps => chunk.write ++ writeTotal totalOps
  | .filesComplete startSeqNo totalOps => Write.i64 startSeqNo ++ writeTotal totalOps
  | .replay operations totalOps =>
      Write.list Operation.write operations ++ writeTotal totalOps
  | .finalize globalCheckpoint => Write.i64 globalCheckpoint

end Command

/-- A message from the source to the target. -/
inductive Request where
  | step (number recovery : Int64) (shard : ShardId) (command : Command)
  /-- Give up and discard all that was received. -/
  | cancel (recovery : Int64) (shard : ShardId) (reason : String)
deriving Repr, DecidableEq

namespace Request

def recovery : Request → Int64
  | .step _ recovery _ _ | .cancel recovery _ _ => recovery

def shard : Request → ShardId
  | .step _ _ shard _ | .cancel _ shard _ => shard

def action : Request → String
  | .step _ _ _ command => command.action
  | .cancel _ _ _ => "cancel"

def tag : Request → UInt8
  | .step _ _ _ command => command.tag
  | .cancel _ _ _ => 6

def write : Request → Bytes
  | .step number recovery shard command =>
      Write.u8 command.tag ++ Write.i64 number ++ Write.i64 recovery ++ shard.write ++
        command.write
  | .cancel recovery shard reason =>
      Write.u8 6 ++ Write.i64 recovery ++ shard.write ++ Write.text reason

def readStep (command : Reader Command) : Reader Request := do
  return .step (← Reader.i64) (← Reader.i64) (← ShardId.read) (← command)

def read : Reader Request := do
  match ← Reader.u8 with
  | 1 => readStep do return .announce (← Announcement.read) (← readTotal)
  | 2 => readStep do return .transfer (← Chunk.read) (← readTotal)
  | 3 => readStep do return .filesComplete (← Reader.i64) (← readTotal)
  | 4 => readStep do
      let operations ←
        Reader.list "translog operations" Operation.leastBytes Operation.read
      return .replay operations (← readTotal)
  | 5 => readStep do return .finalize (← Reader.i64)
  | 6 => return .cancel (← Reader.i64) (← ShardId.read) (← Reader.text)
  | tag => throw (.unknownTag "recovery request" tag)

def decode (input : Bytes) : Except DecodeError Request := Reader.decode read input

end Request

/-- The target's answer to a request. -/
inductive Reply where
  | ack
  | chunkAck (position : UInt64)
  /-- Operations are replayed up to the given sequence number. -/
  | opsAck (localCheckpoint : Int64)
  | finalizeAck (localCheckpoint : Int64)
  | failure (code detail : String)
deriving Repr, DecidableEq

namespace Reply

/-- The reply that reports a failure. Where it arose stays behind. -/
def ofError (error : Error) : Reply := .failure error.kind.code error.detail

/-- A reported failure as an error of this node. An unknown code counts as a
failure of the transport. -/
def toExcept : Reply → Except Error Reply
  | .failure code detail =>
      .error { kind := (ErrorKind.ofCode? code).getD .transport,
               detail := s!"target failed: {detail}" }
  | reply => .ok reply

def write : Reply → Bytes
  | .ack => Write.u8 0
  | .chunkAck position => Write.u8 1 ++ Write.vlong position
  | .opsAck localCheckpoint => Write.u8 2 ++ Write.i64 localCheckpoint
  | .finalizeAck localCheckpoint => Write.u8 3 ++ Write.i64 localCheckpoint
  | .failure code detail => Write.u8 4 ++ Write.text code ++ Write.text detail

def read : Reader Reply := do
  match ← Reader.u8 with
  | 0 => return .ack
  | 1 => return .chunkAck (← Reader.vlong)
  | 2 => return .opsAck (← Reader.i64)
  | 3 => return .finalizeAck (← Reader.i64)
  | 4 => return .failure (← Reader.text) (← Reader.text)
  | tag => throw (.unknownTag "recovery response" tag)

def decode (input : Bytes) : Except DecodeError Reply := Reader.decode read input

end Reply

end ShardSync.Recovery
