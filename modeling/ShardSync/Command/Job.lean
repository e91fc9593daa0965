import ShardSync.Command.Arguments
import ShardSync.Command.Report
import ShardSync.Recovery.Exchange.Fate
import ShardSync.Store.Tree

/-!
# Carrying out a command

A command works on a directory tree. It prints JSON objects and logs lines,
and may fail; what it has done to the tree until then stays.

A shard directory holds the store of the shard in `index` and its operation
log in the file `ops.tlog` in `translog`. Directories that are missing are
made.
-/

set_option autoImplicit false

namespace ShardSync.Command

open Recovery (Exchange Service Settings SourceShard loadSegments)

/-- What a command works on, and what it has told so far. -/
structure Desk where
  tree : Tree
  printed : List Json := []
  journal : Log.Journal := {}

/-- A part of a command. It may fail, and what it has changed until then stays. -/
abbrev Working (α : Type) := ExceptT Error (StateM Desk) α

namespace Working

variable {α : Type}

/-- The outcome of a command, and the desk after it. -/
def start (work : Working α) (desk : Desk) : Except Error α × Desk := work.run.run desk

def check (outcome : Except Error α) : Working α := ExceptT.mk (pure outcome)

def print (value : Json) : Working Unit :=
  modify fun desk => { desk with printed := desk.printed ++ [value] }

def modifyTree (change : Tree → Tree) : Working Unit :=
  modify fun desk => { desk with tree := change desk.tree }

/-- The store in a directory, which is made if it is missing. A file system
takes no path with a null character. -/
def openStore (directory : String) : Working Store := do
  if directory.contains '\x00' then
    throw <| .ofStore <|
      .inaccessible s!"create {directory}" "file name contained an unexpected NUL byte"
  modifyTree (·.make directory)
  let tree := (← get).tree
  if tree.isDirectory (Path.ofText directory) then return tree.store directory
  else throw (.ofStore (.notFound s!"create {directory}"))

/-- The metadata of all files of the store in a directory. -/
def listFiles (directory : String) : Working (List FileMetadata) := do
  let store ← openStore directory
  check (store.liveFiles.mapError Error.ofStore)

def inside (directory name : String) : String :=
  if directory.endsWith "/" then directory ++ name else s!"{directory}/{name}"

def indexOf (directory : String) : String := inside directory "index"

def translogOf (directory : String) : String := inside directory "translog"

def translogFile : String := "ops.tlog"

/-- The operation log of a shard directory. Its file is made if it is missing. -/
def openTranslog (directory : String) : Working Translog := do
  let place := translogOf directory
  modifyTree (·.make place)
  let content := (((← get).tree.store place).files.getD translogFile {}).toBytes
  let translog ← check ((Translog.ofFile content).mapError Error.ofTranslog)
  modifyTree (·.putFile place translogFile content)
  return translog

/-- The settings in a file, or else the defaults. They are logged. -/
def openSettings (file? : Option String) : Working Settings := do
  let settings ← match file? with
    | none => pure {}
    | some file =>
        check ((Settings.load ((← get).tree.file? file)).mapError (Error.ofSettings file))
  modify fun desk => { desk with journal := desk.journal.log <| .ofEvent .configLoaded [
    ("max_concurrent_recoveries", toString settings.maxConcurrentRecoveries),
    ("chunk_size_bytes", toString settings.chunkSize)] }
  return settings

def files (directory : String) : Working Unit := do
  let files ← listFiles directory
  print <| Envelope.ok <| .object [
    ("files", .list (files.map FileMetadata.json)),
    ("total_bytes", .ofNat (FileMetadata.totalLength files))]

/-- Shows what a recovery would send and what it would not have to. -/
def diff (source target : String) : Working Unit := do
  let inventory := Recovery.Inventory.diff (← listFiles source) (← listFiles target)
  print <| Envelope.ok <| .object [
    ("to_send", .list (inventory.toSend.map FileMetadata.json)),
    ("already_present", .list (inventory.alreadyPresent.map FileMetadata.json)),
    ("bytes_to_send", .ofNat inventory.bytesToSend),
    ("bytes_reused", .ofNat inventory.bytesReused)]

def targetStore : String := "target"

/-- A node that hosts the shard on the given store, with an engine on its
segments. -/
def host (shard : ShardId) (store : Store) : Working Service := do
  let segments ← check ((loadSegments store).mapError fun error => ⟨.store, error.message⟩)
  let engine ← check ((Engine.ofSegments segments).mapError Error.ofEngine)
  let service : Service := {
    node := { id := .zero, name := "target" }
    stores := (∅ : Std.ExtTreeMap String Store).insert targetStore store
    journal := (← get).journal }
  return service.register shard targetStore engine

/-- What came of a session that has been driven to its end. -/
def reportOf (exchange : Exchange) (shard : ShardId) (recovery : Int64) : Option Report := do
  let delivery ← exchange.manager.sessions[recovery]?
  let result ← delivery.result?
  return {
    recovery, shard, result
    source := delivery.session.progress
    target? := exchange.service.progress? recovery
    metrics := exchange.journal.metrics }

/-- Prints a report. The command fails if the recovery has failed. -/
def printReport (report : Report) : Working Unit := do
  match report.result with
  | .ok _ => print (Envelope.ok report.json)
  | .error cause =>
      let error := Error.ofRecovery cause
      print (Envelope.error error.kind.code error.detail (some report.json))
      throw error

def recover (source target : String) (settings : Settings) (shard : ShardId) :
    Working Unit := do
  let copy : SourceShard := {
    store := ← openStore (indexOf source)
    translog := ← openTranslog source }
  let service ← host shard (← openStore (indexOf target))
  let (started, service) := service.startRecovery shard { id := .zero, name := "source" }
  let start ← check (started.mapError Error.ofRecovery)
  let exchange : Exchange := { source := copy, manager := { settings }, service }
  let (_, exchange) := (exchange.queue start).complete start.recovery
  let recovered := exchange.service.stores.getD targetStore {}
  modify fun desk => { desk with
    tree := desk.tree.putStore (indexOf target) recovered
    journal := exchange.journal }
  match reportOf exchange shard start.recovery with
  | some report => printReport report
  | none => throw ⟨.recovery, "the recovery has not ended"⟩

end Working

def localIndexUuid : String := "local"

namespace Job

def work : Job → Working Unit
  | .files directory => Working.files directory
  | .diff source target => Working.diff source target
  | .recover source target settingsFile? index number => do
      let settings ← Working.openSettings settingsFile?
      Working.recover source target settings { index, indexUuid := localIndexUuid, number }

def directories : Job → List String
  | .files directory => [directory]
  | .diff source target => [source, target]
  | .recover source target _ _ _ =>
      [Working.indexOf source, Working.translogOf source, Working.indexOf target]

def settingsFile? : Job → Option String
  | .recover _ _ settingsFile? _ _ => settingsFile?
  | _ => none

def run (job : Job) (tree : Tree) : Except Error Unit × Desk := job.work.start { tree }

end Job

end ShardSync.Command
