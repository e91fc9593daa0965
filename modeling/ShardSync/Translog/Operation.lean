import ShardSync.Json.Basic
import ShardSync.Wire.Reader
import ShardSync.Wire.Writer

/-!
# Operations

An operation changes one document or none. Its sequence number gives its
place in the history of the shard, its primary term the reign under which it
was accepted.
-/

set_option autoImplicit false

namespace ShardSync

open Wire

/-- What an operation does. -/
inductive Action where
  | index (id : String) (version : Int64) (source : Bytes)
  | delete (id : String) (version : Int64)
  | noOp (reason : String)
deriving Repr, DecidableEq

/-- One entry of a shard's history. -/
structure Operation where
  seqNo : Int64
  primaryTerm : Int64
  action : Action
deriving Repr, DecidableEq

namespace Action

def id? : Action → Option String
  | .index id _ _ | .delete id _ => some id
  | .noOp _ => none

/-- The action as a JSON object. A source is a list of numbers. -/
def json : Action → Json
  | .index id version source =>
      .object [("type", .text "index"), ("id", .text id), ("version", .int version.toInt),
        ("source", .list (source.map fun byte => .ofNat byte.toNat))]
  | .delete id version =>
      .object [("type", .text "delete"), ("id", .text id), ("version", .int version.toInt)]
  | .noOp reason => .object [("type", .text "no_op"), ("reason", .text reason)]

def write : Action → Bytes
  | .index id version source =>
      Write.u8 0 ++ Write.text id ++ Write.i64 version ++ Write.bytes source
  | .delete id version => Write.u8 1 ++ Write.text id ++ Write.i64 version
  | .noOp reason => Write.u8 2 ++ Write.text reason

def read : Reader Action := do
  match ← Reader.u8 with
  | 0 => return .index (← Reader.text) (← Reader.i64) (← Reader.bytes)
  | 1 => return .delete (← Reader.text) (← Reader.i64)
  | 2 => return .noOp (← Reader.text)
  | tag => throw (.unknownTag "translog operation" tag)

end Action

namespace Operation

def id? (operation : Operation) : Option String := operation.action.id?

def write (operation : Operation) : Bytes :=
  Write.i64 operation.seqNo ++ Write.i64 operation.primaryTerm ++ operation.action.write

def read : Reader Operation := do
  return { seqNo := ← Reader.i64, primaryTerm := ← Reader.i64, action := ← Action.read }

def json (operation : Operation) : Json :=
  .object [
    ("seq_no", .int operation.seqNo.toInt),
    ("primary_term", .int operation.primaryTerm.toInt),
    ("kind", operation.action.json)]

/-- The least number of bytes that an operation takes up: two integers, a tag
and an empty text. -/
def leastBytes : Nat := 18

/-- An upper bound on the number of bytes written, for filling batches. A
length is taken to need five bytes. -/
def estimatedSize (operation : Operation) : Nat :=
  8 + 8 + 1 +
    match operation.action with
    | .index id _ source => 5 + id.utf8ByteSize + 8 + 5 + source.length
    | .delete id _ => 5 + id.utf8ByteSize + 8
    | .noOp reason => 5 + reason.utf8ByteSize

end Operation

/-- The sequence number that stands for an empty history. -/
def noOperations : Int64 := -1

end ShardSync
