import ShardSync.Recovery.Message
import ShardSync.Store.Basic

/-!
# Cutting files into chunks

A file is sent in pieces of equal length, front to back; the last piece holds
what is left. An empty file is sent as one empty piece.
-/

set_option autoImplicit false

namespace ShardSync.Recovery

/-- A run of bytes of a file that is sent as one chunk. -/
structure Piece where
  file : FileMetadata
  position : Nat
  length : Nat
  isLast : Bool
deriving Repr, DecidableEq

namespace Piece

/-- The pieces of a file from `position` on, of `size` bytes each. A size of
zero counts as one. -/
def cutFrom (size : Nat) (file : FileMetadata) (position : Nat) : List Piece :=
  let rest := file.length.toNat - position
  if rest ≤ max size 1 then [{ file, position, length := rest, isLast := true }]
  else
    { file, position, length := max size 1, isLast := false } ::
      cutFrom size file (position + max size 1)
termination_by file.length.toNat - position

def cut (size : Nat) (file : FileMetadata) : List Piece := cutFrom size file 0

/-- The chunk for a piece, with the bytes that the store holds. -/
def chunk (piece : Piece) (store : Store) : Except StoreError Chunk := do
  let content ← store.readChunk piece.file.name piece.position piece.length
  return {
    file := piece.file
    position := .ofNat piece.position
    content
    isLast := piece.isLast
    checksum := checksum content }

end Piece

end ShardSync.Recovery
