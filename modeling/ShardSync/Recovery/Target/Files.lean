import ShardSync.Recovery.Target.Basic

/-!
# Receiving files

The announcement names all files of the source. For those that will be sent a
temporary file of the announced length is made; the others have to be there
with the announced length.

Chunks may come in any order and more than once. A file is verified as soon as
as many bytes have been written as were announced, and is not written any more
after that.
-/

set_option autoImplicit false

namespace ShardSync.Recovery

/-- The number of bytes that an announcement speaks of. -/
structure AnnouncedBytes where
  total : Nat
  reused : Nat
deriving Repr, DecidableEq

namespace Announcement

/-- Refuses lists of names and of sizes that do not belong together. -/
def checkCounts (announcement : Announcement) : Except Error Unit := do
  if announcement.names.length ≠ announcement.sizes.length then
    throw <| .protocolViolation <|
      s!"{announcement.names.length} file names but {announcement.sizes.length} file sizes"
  if announcement.existingNames.length ≠ announcement.existingSizes.length then
    throw <| .protocolViolation <|
      s!"{announcement.existingNames.length} existing file names but " ++
        s!"{announcement.existingSizes.length} existing file sizes"

/-- Refuses a name that is reserved for temporary files or stands in `seen`. -/
def checkNames : List String → List String → Except Error Unit
  | _, [] => .ok ()
  | seen, name :: names =>
      if Store.isTemp name || seen.contains name then
        .error (.protocolViolation s!"file [{name}] announced twice or reserved")
      else checkNames (name :: seen) names

/-- Refuses a file that is said to be there and is not there in that length. -/
def checkHeld (held : List FileMetadata) (file : String × UInt64) : Except Error Unit :=
  match held.find? (·.name == file.1) with
  | none => .error (.protocolViolation s!"file [{file.1}] announced as present is missing")
  | some found =>
      if found.length = file.2 then .ok ()
      else .error <| .protocolViolation <|
        s!"file [{file.1}] announced as present with {file.2} bytes but holds {found.length}"

/-- The sum of sizes, which has to fit in 64 bits. -/
def totalSize (what : String) (sizes : List UInt64) : Except Error Nat :=
  let total := sizes.foldr (fun size rest => size.toNat + rest) 0
  if total < UInt64.size then .ok total
  else .error (.protocolViolation s!"{what} overflow a u64")

/-- Checks an announcement against the files that the store holds. -/
def accept (announcement : Announcement) (store : Store) : Except Error AnnouncedBytes := do
  announcement.checkCounts
  checkNames [] (announcement.names ++ announcement.existingNames)
  let held ← store.liveFiles.mapError Error.ofStore
  (announcement.existingNames.zip announcement.existingSizes).forM (checkHeld held)
  let sent ← totalSize "file sizes" announcement.sizes
  let reused ← totalSize "existing file sizes" announcement.existingSizes
  if UInt64.size ≤ sent + reused then throw (.protocolViolation "file sizes overflow a u64")
  return { total := sent + reused, reused }

end Announcement

namespace Receiving

def stage (file : String × UInt64) : Receiving Unit := do
  let tempName := Store.tempName (← get).target.recovery file.1
  throughStore (·.createSized tempName file.2.toNat)
  modifyTarget fun target =>
    { target with
      incoming := target.incoming.insert file.1 { tempName, length := file.2.toNat } }

def announce (announcement : Announcement) (totalOps : UInt32) : Receiving Reply := do
  let receiver ← get
  check (receiver.target.progress.expect .init)
  let bytes ← check (announcement.accept receiver.copy.store)
  (announcement.names.zip announcement.sizes).forM stage
  let sent := announcement.names.length
  let reused := announcement.existingNames.length
  modifyTarget fun target =>
    { target with existing := announcement.existingNames, totalOps := totalOps.toNat }
  modifyProgress fun progress =>
    { progress.setFileTotals (sent + reused) reused bytes.total bytes.reused with
      opsTotal := totalOps.toNat }
  transition .files
  log .filesBegin [("files", toString sent), ("reused", toString reused)]
  return .ack

def discard (incoming : Incoming) : Receiving Unit := do
  match (← get).copy.store.delete incoming.tempName with
  | .ok store => setStore store
  | .error error =>
      logLine {
        severity := .warn
        event := "RECOVERY_TEMP_CLEANUP_FAILED"
        fields := [("file", incoming.tempName), ("reason", error.message)] }

end Receiving

namespace Incoming

/-- Takes the metadata that came with a chunk, which have to be those of the
announcement and of the chunks before. -/
def describe (incoming : Incoming) (file : FileMetadata) : Except Error Incoming :=
  if file.length.toNat ≠ incoming.length then
    .error <| .protocolViolation <|
      s!"file [{file.name}] announced with length {incoming.length} but chunk says {file.length}"
  else
    match incoming.file? with
    | some known =>
        if known = file then .ok incoming
        else .error (.protocolViolation s!"file [{file.name}] metadata changed between chunks")
    | none => .ok { incoming with file? := some file }

/-- Refuses a chunk that reaches beyond the end of the file. -/
def checkBounds (incoming : Incoming) (chunk : Chunk) : Except Error Unit :=
  if chunk.position.toNat + chunk.content.length ≤ incoming.length then .ok ()
  else .error <| .protocolViolation <|
    s!"chunk of {chunk.content.length} bytes at {chunk.position} of [{chunk.file.name}] " ++
      s!"exceeds length {incoming.length}"

def take (incoming : Incoming) (chunk : Chunk) : Incoming :=
  { incoming with
    positions := incoming.positions.insert chunk.position.toNat
    received := incoming.received + chunk.content.length }

/-- Whether as many bytes have been written as were announced. Even an empty
file has a chunk. -/
def isComplete (incoming : Incoming) : Bool :=
  incoming.received == incoming.length && !incoming.positions.isEmpty

end Incoming

namespace Receiving

def setIncoming (name : String) (incoming : Incoming) : Receiving Unit :=
  modifyTarget fun target => { target with incoming := target.incoming.insert name incoming }

/-- Compares the content of a chunk with the checksum that came with it. -/
def checkContent (incoming : Incoming) (chunk : Chunk) : Receiving Unit := do
  let actual := checksum chunk.content
  if actual ≠ chunk.checksum then
    let expected := Text.Hex.padded 8 chunk.checksum.toNat
    let actual := Text.Hex.padded 8 actual.toNat
    count fun metrics => { metrics with chunkMismatches := metrics.chunkMismatches + 1 }
    log .chunkMismatch [("file", chunk.file.name), ("position", toString chunk.position),
      ("expected", expected), ("actual", actual)]
    discard incoming
    throw <| .checksumMismatch <|
      s!"chunk at position {chunk.position} of [{chunk.file.name}]: " ++
        s!"expected {expected}, actual {actual}"

/-- Writes a chunk, unless one was written at its position before. -/
def writeChunk (incoming : Incoming) (chunk : Chunk) : Receiving Incoming := do
  if incoming.positions.contains chunk.position.toNat then return incoming
  else
    onStore (·.writeAt incoming.tempName chunk.position.toNat chunk.content)
    let incoming := incoming.take chunk
    setIncoming chunk.file.name incoming
    return incoming

def verify (incoming : Incoming) (file : FileMetadata) : Receiving Unit := do
  match (← get).copy.store.verify incoming.tempName file with
  | .error error =>
      count fun metrics => { metrics with chunkMismatches := metrics.chunkMismatches + 1 }
      log .chunkMismatch [("file", file.name), ("reason", error.message)]
      discard incoming
      throw (.ofStore error)
  | .ok () =>
      setIncoming file.name { incoming with isVerified := true }
      modifyProgress fun progress => { progress with filesSent := progress.filesSent + 1 }
      log .fileVerified [("file", file.name)]

/-- Takes a chunk of an announced file. A chunk of a verified file is
acknowledged and not looked at. -/
def transfer (chunk : Chunk) : Receiving Reply := do
  let target := (← get).target
  check (target.progress.expect .files)
  match target.incoming[chunk.file.name]? with
  | none => throw (.protocolViolation s!"unexpected file [{chunk.file.name}]")
  | some incoming =>
      if !incoming.isVerified then
        let incoming ← check (incoming.describe chunk.file)
        setIncoming chunk.file.name incoming
        check (incoming.checkBounds chunk)
        checkContent incoming chunk
        let incoming ← writeChunk incoming chunk
        if incoming.isComplete then verify incoming chunk.file
      return .chunkAck chunk.position

end Receiving

end ShardSync.Recovery
