import ShardSync.Store.Metadata

/-!
# File inventory

Which files of the source have to be sent. A file is spared only if the
target holds one with the same name, length and checksum.
-/

set_option autoImplicit false

namespace ShardSync.Recovery

/-- The source's files, divided by whether the target holds them already. -/
structure Inventory where
  toSend : List FileMetadata := []
  alreadyPresent : List FileMetadata := []
deriving Repr, DecidableEq

namespace Inventory

/-- Divides the source's files by whether the target lists an equal one. Both
parts keep the source's order. -/
def diff (source target : List FileMetadata) : Inventory where
  toSend := source.filter fun file => !target.contains file
  alreadyPresent := source.filter fun file => target.contains file

def totalFiles (inventory : Inventory) : Nat :=
  inventory.toSend.length + inventory.alreadyPresent.length

def bytesToSend (inventory : Inventory) : Nat := FileMetadata.totalLength inventory.toSend

def bytesReused (inventory : Inventory) : Nat := FileMetadata.totalLength inventory.alreadyPresent

def json (inventory : Inventory) : Json :=
  .object [
    ("to_send", .list (inventory.toSend.map FileMetadata.json)),
    ("already_present", .list (inventory.alreadyPresent.map FileMetadata.json))]

def totalBytes (inventory : Inventory) : Nat :=
  inventory.bytesToSend + inventory.bytesReused

end Inventory

end ShardSync.Recovery
