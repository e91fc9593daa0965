import ShardSync.Text.Uuid
import ShardSync.Wire.Reader
import ShardSync.Wire.Writer

/-!
# Nodes

The machines between which shards are copied. A recovery carries a node's
identity along for reports and never resolves it.
-/

set_option autoImplicit false

namespace ShardSync

open Wire

structure NodeId where
  id : Text.Uuid
  name : String
deriving Repr, DecidableEq

namespace NodeId

/-- Name and identifier, each in braces. -/
def label (node : NodeId) : String :=
  "\x7b" ++ node.name ++ "\x7d\x7b" ++ toString node.id ++ "\x7d"

def write (node : NodeId) : Bytes :=
  Write.text (toString node.id) ++ Write.text node.name

def read : Reader NodeId := do
  let spelling ← Reader.text
  match Text.Uuid.parse? spelling with
  | some id => return { id, name := ← Reader.text }
  | none => throw (.invalidData s!"invalid node id '{spelling}'")

end NodeId

end ShardSync
