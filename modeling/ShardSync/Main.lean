import ShardSync.Command.Job
import ShardSync.Command.Usage

/-!
# The program

Reads the directories that a command works on, carries the command out on
them, and writes back what has changed. Answers go to the standard output, log
lines and reports of failures to the standard error output.
-/

set_option autoImplicit false

namespace ShardSync.Main

open Command

/-- The tree with the regular files of a directory of the file system, if it
exists. -/
def loadDirectory (tree : Tree) (directory : String) : IO Tree := do
  let .ok place ← (IO.FS.realPath directory).toBaseIO | return tree
  if !(← place.isDir) then return tree
  let mut tree := tree.make directory
  for entry in ← place.readDir do
    if (← entry.path.symlinkMetadata).type == .file then
      tree := tree.putFile directory entry.fileName (← IO.FS.readBinFile entry.path).toList
  return tree

/-- The tree with one more file of the file system, if it exists. -/
def loadFile (tree : Tree) (file : String) : IO Tree := do
  let .ok place ← (IO.FS.realPath file).toBaseIO | return tree
  if ← place.isDir then return tree
  let name := ((file.splitOn "/").getLast?).getD ""
  return tree.putFile (file.dropEnd name.length).toString name
    (← IO.FS.readBinFile place).toList

/-- The part of the file system that a job works on. -/
def load (job : Job) : IO Tree := do
  job.settingsFile?.toList.foldlM loadFile (← job.directories.foldlM loadDirectory {})

/-- Makes the files of a directory those of the tree. -/
def storeDirectory (loaded : Tree) (path : Path)
    (files : Std.ExtTreeMap String Content) : IO Unit := do
  if path.getLast?.any (· != "/") then IO.FS.createDirAll path.toText
  let known := loaded.directories.getD path ∅
  let place (name : String) : String := Path.toText (path ++ [name])
  for (name, content) in files.toList do
    if known[name]? != some content then
      IO.FS.writeBinFile (place name) (.mk content.toBytes.toArray)
  for name in known.keys do
    if !files.contains name then IO.FS.removeFile (place name)

/-- Writes back what has changed since the tree was loaded. -/
def store (loaded changed : Tree) : IO Unit :=
  changed.directories.toList.forM fun (path, files) => storeDirectory loaded path files

def run (invocation : Invocation) : IO UInt32 := do
  let loaded ← load invocation.job
  let (outcome, desk) := invocation.job.run loaded
  store loaded desk.tree
  let lowest := if invocation.verbose then Log.Severity.trace else Log.Severity.info
  for line in Log.written lowest desk.journal.lines do IO.eprint line
  for value in desk.printed do IO.println value.sorted.render
  match outcome with
  | .ok () => return 0
  | .error error =>
      IO.eprintln error.message
      return 1

end ShardSync.Main

open ShardSync Command in
def main (arguments : List String) : IO UInt32 := do
  match Invocation.ofArguments arguments with
  | .ok invocation => Main.run invocation
  | .error rejection =>
      for line in rejection.lines do
        if rejection.isRequest then IO.println line else IO.eprintln line
      return if rejection.isRequest then 0 else 2
