import ShardSync.Json.Basic
import ShardSync.Store.Content
import ShardSync.Text.Hex
import ShardSync.Wire.Reader
import ShardSync.Wire.Writer

/-!
# File metadata

What two nodes compare to find out whether they hold the same file: its name,
its length and the checksum of its whole content.
-/

set_option autoImplicit false

namespace ShardSync

open Wire

structure FileMetadata where
  name : String
  length : UInt64
  checksum : UInt32
deriving Repr, DecidableEq, Inhabited

namespace FileMetadata

def ofContent (name : String) (content : Content) : FileMetadata :=
  { name, length := UInt64.ofNat content.length, checksum := content.checksum }

def totalLength (files : List FileMetadata) : Nat :=
  files.foldr (fun file rest => file.length.toNat + rest) 0

/-- Name, length and checksum for a report. -/
def label (file : FileMetadata) : String :=
  s!"name [{file.name}], length [{file.length}], checksum [{Text.Hex.padded 8 file.checksum.toNat}]"

def json (file : FileMetadata) : Json :=
  .object [
    ("name", .text file.name),
    ("length", .ofNat file.length.toNat),
    ("checksum", .ofNat file.checksum.toNat)]

def write (file : FileMetadata) : Bytes :=
  Write.text file.name ++ Write.vlong file.length ++ Write.u32 file.checksum

def read : Reader FileMetadata := do
  return { name := ← Reader.text, length := ← Reader.vlong, checksum := ← Reader.u32 }

/-- The least number of bytes that a file's metadata takes up on the wire. -/
def leastBytes : Nat := 6

end FileMetadata

end ShardSync
