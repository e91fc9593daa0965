import ShardSync.Text.Hex
import ShardSync.Text.Quoted

/-!
# Failures of a store
-/

set_option autoImplicit false

namespace ShardSync

inductive StoreError where
  | notFound (name : String)
  | invalidName (name : String)
  | pinned (name : String)
  | outOfRange (name : String) (position count length : Nat)
  | checksumMismatch (name : String) (expected actual : UInt32)
  | inaccessible (context detail : String)
deriving Repr, DecidableEq

def StoreError.message : StoreError → String
  | .notFound name => s!"File not found: {name}"
  | .invalidName name => s!"Invalid file name: {Text.Quoted.encode name}"
  | .pinned name => s!"File {name} is referenced by a pinned snapshot"
  | .outOfRange name position count length =>
      s!"Read past end of {name}: position {position} + {count} > length {length}"
  | .checksumMismatch name expected actual =>
      s!"Checksum mismatch for {name}: expected {Text.Hex.padded 8 expected.toNat}, " ++
        s!"actual {Text.Hex.padded 8 actual.toNat}"
  | .inaccessible context detail => s!"I/O error during {context}: {detail}"

end ShardSync
