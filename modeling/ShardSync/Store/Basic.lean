import Std.Data.ExtTreeMap
import ShardSync.Store.Error
import ShardSync.Store.Metadata

/-!
# Stores

A store is a flat set of named files. A file whose name begins with
`recovery.` is temporary: it belongs to a recovery that is going on, and takes
its live name only when the recovery is made final. All other files are live.

A snapshot lists the live files and pins their names. A pinned name cannot be
deleted while a snapshot that lists it exists.
-/

set_option autoImplicit false

namespace ShardSync

/-- The names and contents of the files, and how many snapshots hold each
name. A name that no snapshot holds has no count. -/
structure Store where
  files : Std.ExtTreeMap String Content := ∅
  pins : Std.ExtTreeMap String Nat := ∅

namespace Store

/-- The beginning of the name of every temporary file. -/
def tempMark : String := "recovery."

/-- The beginning of the name of every temporary file of one recovery. -/
def tempMarkOf (recovery : Int64) : String := tempMark ++ toString recovery ++ "."

/-- The name under which a recovery keeps a file that is not live yet. -/
def tempName (recovery : Int64) (name : String) : String := tempMarkOf recovery ++ name

def isTemp (name : String) : Bool := tempMark.toList.isPrefixOf name.toList

def isTempOf (recovery : Int64) (name : String) : Bool :=
  (tempMarkOf recovery).toList.isPrefixOf name.toList

/-- Whether a file may have this name: it names neither a directory nor a
place outside the store. -/
def isValidName (name : String) : Bool :=
  name != "" && name != "." && name != ".." &&
    name.toList.all fun symbol => symbol != '/' && symbol != '\\' && symbol != '\x00'

def checkName (name : String) : Except StoreError Unit :=
  if isValidName name then .ok () else .error (.invalidName name)

/-- The content of a file that is expected to exist. -/
def content (store : Store) (name : String) : Except StoreError Content := do
  checkName name
  match store.files[name]? with
  | some content => return content
  | none => throw (.notFound name)

/-- The octets of a file that is expected to exist. -/
def read (store : Store) (name : String) : Except StoreError Bytes := do
  return (← store.content name).toBytes

/-- The metadata of a file, from its content. -/
def metadata (store : Store) (name : String) : Except StoreError FileMetadata := do
  return .ofContent name (← store.content name)

/-- The names of all live files, in increasing order. -/
def liveNames (store : Store) : List String :=
  store.files.keys.filter fun name => !isTemp name

/-- The names of all temporary files, in increasing order. -/
def tempNames (store : Store) : List String :=
  store.files.keys.filter isTemp

/-- The metadata of every live file, in increasing order of their names. A file
whose name is inadmissible, which only something else than the store can have
made, stops the listing. -/
def liveFiles (store : Store) : Except StoreError (List FileMetadata) :=
  store.liveNames.mapM store.metadata

/-- A run of bytes of a file, which has to lie within it. -/
def readChunk (store : Store) (name : String) (position count : Nat) :
    Except StoreError Bytes := do
  let content ← store.content name
  if content.length < position + count then
    throw (.outOfRange name position count content.length)
  else return content.slice position count

/-- Replaces the whole content of a file, which need not exist. -/
def write (store : Store) (name : String) (content : Bytes) : Except StoreError Store := do
  checkName name
  return { store with files := store.files.insert name (.ofBytes content) }

def maxLength : Nat := 0x7FFFFFFFFFFFFFFF

/-- Makes a file of the given length that holds zeros. The file is emptied
before its length is set, so it is left empty if the length is too large. -/
def createSized (store : Store) (name : String) (length : Nat) :
    Except StoreError Unit × Store :=
  match checkName name with
  | .error error => (.error error, store)
  | .ok () =>
      if length ≤ maxLength then
        (.ok (), { store with files := store.files.insert name (.blank length) })
      else
        (.error (.inaccessible s!"size {name}" "number too large to fit in target type"),
          { store with files := store.files.insert name {} })

def writeAt (store : Store) (name : String) (position : Nat) (data : Bytes) :
    Except StoreError Store := do
  let content ← store.content name
  return { store with files := store.files.insert name (content.overwrite position data) }

/-- Compares length and checksum of a file with the expected ones. The report
of a difference names the expected file. -/
def verify (store : Store) (name : String) (expected : FileMetadata) :
    Except StoreError Unit := do
  let actual ← store.metadata name
  if actual.length = expected.length ∧ actual.checksum = expected.checksum then return
  else throw (.checksumMismatch expected.name expected.checksum actual.checksum)

/-- Makes the content of an existing file durable. -/
def sync (store : Store) (name : String) : Except StoreError Unit := do
  let _ ← store.content name

/-- Gives a file another name, in place of a file that had it. -/
def rename (store : Store) (source destination : String) : Except StoreError Store := do
  checkName source
  checkName destination
  match store.files[source]? with
  | some content =>
      return { store with files := (store.files.erase source).insert destination content }
  | none => throw (.notFound s!"rename {source} -> {destination}")

def isPinned (store : Store) (name : String) : Bool := store.pins.contains name

/-- Removes a file, which need not exist. A pinned file is kept. -/
def delete (store : Store) (name : String) : Except StoreError Store := do
  if store.isPinned name then throw (.pinned name)
  checkName name
  return { store with files := store.files.erase name }

/-- Removes files one after the other, up to the first that cannot be removed. -/
def deleteAll (store : Store) : List String → Except StoreError Unit × Store
  | [] => (.ok (), store)
  | name :: names =>
      match store.delete name with
      | .ok store => store.deleteAll names
      | .error error => (.error error, store)

/-- The live files that are not among those to keep. -/
def stale (store : Store) (keep : List String) : List String :=
  store.liveNames.filter fun name => !keep.contains name

/-- Removes every live file that is not to be kept, and reports the removed
names. -/
def removeStale (store : Store) (keep : List String) :
    Except StoreError (List String) × Store :=
  let names := store.stale keep
  let (outcome, store) := store.deleteAll names
  (outcome.map fun () => names, store)

/-- Removes every temporary file of a recovery, and reports their number. -/
def removeTemps (store : Store) (recovery : Int64) : Except StoreError Nat × Store :=
  let names := store.files.keys.filter (isTempOf recovery)
  let (outcome, store) := store.deleteAll names
  (outcome.map fun () => names.length, store)

end Store

/-- The live files at one moment, held for as long as the snapshot exists. -/
structure Snapshot where
  files : List FileMetadata
deriving Repr, DecidableEq

namespace Snapshot

def totalBytes (snapshot : Snapshot) : Nat :=
  FileMetadata.totalLength snapshot.files

end Snapshot

namespace Store

def pin (pins : Std.ExtTreeMap String Nat) (name : String) : Std.ExtTreeMap String Nat :=
  pins.insert name (pins.getD name 0 + 1)

def unpin (pins : Std.ExtTreeMap String Nat) (name : String) : Std.ExtTreeMap String Nat :=
  match pins[name]? with
  | some (count + 2) => pins.insert name (count + 1)
  | some _ => pins.erase name
  | none => pins

/-- Lists the live files and holds their names. -/
def takeSnapshot (store : Store) : Except StoreError (Snapshot × Store) := do
  let files ← store.liveFiles
  return (⟨files⟩, { store with pins := (files.map FileMetadata.name).foldl pin store.pins })

def release (store : Store) (snapshot : Snapshot) : Store :=
  { store with pins := (snapshot.files.map FileMetadata.name).foldl unpin store.pins }

def pinnedCount (store : Store) : Nat := store.pins.size

end Store

end ShardSync
