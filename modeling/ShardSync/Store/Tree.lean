import ShardSync.Store.Basic

/-!
# Directory trees

A tree holds directories by their paths, and the files of each directory. The
files of one directory are the files of a store; the directories in it do not
belong to the store.
-/

set_option autoImplicit false

namespace ShardSync

/-- The names on the way to a file or a directory. A way that begins at the
root of the file system begins with a slash as its first name. -/
abbrev Path := List String

namespace Path

def isIdle (name : String) : Bool := name == "" || name == "."

/-- Goes on from a path. An empty name and a dot lead nowhere; two dots lead
back, and away from the starting point if there is nothing to go back from. -/
def follow (path : Path) (name : String) : Path :=
  if isIdle name then path
  else if name = ".." then
    match path.getLast? with
    | none | some ".." => path ++ [name]
    | some "/" => path
    | some _ => path.dropLast
  else path ++ [name]

def origin (text : String) : Path := if text.startsWith "/" then ["/"] else []

/-- All paths on the way along some names, in order. -/
def stations (path : Path) : List String → List Path
  | [] => []
  | name :: names => path.follow name :: stations (path.follow name) names

def ofText (text : String) : Path := (text.splitOn "/").foldl follow (origin text)

/-- Whether a text ends in a dot. Such a text describes a directory that is
there, and cannot be used to make one. -/
def endsInDot (text : String) : Bool :=
  ((text.splitOn "/").reverse.takeWhile isIdle).contains "."

/-- The names on the way to a directory that have to be followed to make it. Of
a text that ends in a dot this is only the way to the directory before. -/
def namesToMake (text : String) : List String :=
  let names := text.splitOn "/"
  if endsInDot text then (names.reverse.dropWhile isIdle).tail.reverse else names

def toText (path : Path) : String :=
  match path with
  | "/" :: names => "/" ++ "/".intercalate names
  | names => "/".intercalate names

end Path

structure Tree where
  directories : Std.ExtTreeMap Path (Std.ExtTreeMap String Content) := ∅

namespace Tree

/-- Whether there is such a directory. The place where relative paths start and
the root of the file system are always there. -/
def isDirectory (tree : Tree) (path : Path) : Bool :=
  path.isEmpty || path == ["/"] || tree.directories.contains path

/-- Makes a directory, unless it is there. -/
def makeOne (tree : Tree) (path : Path) : Tree :=
  if tree.isDirectory path then tree
  else { tree with directories := tree.directories.insert path ∅ }

/-- Makes the directory that a text describes, and all directories on the way
to it. -/
def make (tree : Tree) (directory : String) : Tree :=
  ((Path.origin directory).stations (Path.namesToMake directory)).foldl makeOne tree

/-- The files of a directory, as a store that no snapshot pins. -/
def store (tree : Tree) (directory : String) : Store where
  files := tree.directories.getD (Path.ofText directory) ∅

/-- Replaces the files of a directory by those of a store. -/
def putStore (tree : Tree) (directory : String) (store : Store) : Tree where
  directories := tree.directories.insert (Path.ofText directory) store.files

/-- Where some names lead, if every step ends in a directory. -/
def enter? (tree : Tree) (path : Path) (names : List String) : Option Path :=
  names.foldlM (fun path name =>
    let path := path.follow name
    if tree.isDirectory path then some path else none) path

/-- The content of a file, if there are directories all the way to it. -/
def file? (tree : Tree) (file : String) : Option Bytes := do
  let names := file.splitOn "/"
  let path ← tree.enter? (Path.origin file) names.dropLast
  let files ← tree.directories[path]?
  return (← files[← names.getLast?]?).toBytes

/-- Writes a file in a directory, which is made if it is missing. -/
def putFile (tree : Tree) (directory name : String) (content : Bytes) : Tree :=
  let tree := tree.make directory
  tree.putStore directory { files := (tree.store directory).files.insert name (.ofBytes content) }

end Tree

end ShardSync
