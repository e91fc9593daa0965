import Std.Data.ExtTreeMap
import ShardSync.Checksum
import ShardSync.Text.Hex
import ShardSync.Translog.Error
import ShardSync.Translog.Operation

/-!
# The operation log

The log keeps operations under their sequence numbers. A log with a file
appends a record for every operation it accepts: the length of the body, the
body, and the checksum of the body. A file with a torn or altered record is
refused as a whole.
-/

set_option autoImplicit false

namespace ShardSync

/-- The record of one operation in the file of a log. -/
def Operation.record (operation : Operation) : Bytes :=
  let body := operation.write
  Bytes.bigEndian 4 body.length ++ body ++ Bytes.bigEndian 4 (checksum body).toNat

/-- The operations of a shard. The file's content is kept beside them if there
is one. -/
structure Translog where
  operations : Std.ExtTreeMap Int64 Operation := ∅
  file? : Option Bytes := none

namespace Translog

/-- The bytes that a record takes up beside its body. -/
def recordOverhead : Nat := 8

/-- The operation of the record at the front of `rest`, and the length of its
body, or the reason why there is none. -/
def readRecord (rest : Bytes) : Except String (Operation × Nat) :=
  if !rest.hasAtLeast (recordOverhead + Operation.leastBytes) then
    .error s!"truncated record: {rest.length} bytes remaining"
  else
    let length := Bytes.ofBigEndian (rest.take 4)
    if !rest.hasAtLeast (length + recordOverhead) then
      .error s!"record length {length} exceeds remaining {rest.length} bytes"
    else
      let body := (rest.drop 4).take length
      let expected := Bytes.ofBigEndian ((rest.drop (4 + length)).take 4)
      let actual := (checksum body).toNat
      if expected ≠ actual then
        .error <| s!"checksum mismatch: expected {Text.Hex.padded 8 expected}, " ++
          s!"actual {Text.Hex.padded 8 actual}"
      else
        match Wire.Reader.decode Operation.read body with
        | .ok operation => .ok (operation, length)
        | .error error => .error error.message

/-- The operations of the records in `rest`, which begins at `offset` of the
file, behind those already read, which are in reverse. -/
def readRecords (offset : Nat) (collected : List Operation) :
    Bytes → Except TranslogError (List Operation)
  | [] => .ok collected.reverse
  | byte :: bytes =>
      match readRecord (byte :: bytes) with
      | .error reason => .error (.corruption offset reason)
      | .ok (operation, length) =>
          readRecords (offset + (length + recordOverhead)) (operation :: collected)
            ((byte :: bytes).drop (length + recordOverhead))
termination_by rest => rest.length
decreasing_by simp only [recordOverhead, List.length_drop, List.length_cons]; omega

/-- Enters an operation under a sequence number that is free. -/
def insertNew (operations : Std.ExtTreeMap Int64 Operation) (operation : Operation) :
    Except TranslogError (Std.ExtTreeMap Int64 Operation) :=
  if operations.contains operation.seqNo then .error (.duplicate operation.seqNo)
  else .ok (operations.insert operation.seqNo operation)

/-- The log with the given file. Any two records have to have different
sequence numbers. -/
def ofFile (file : Bytes) : Except TranslogError Translog := do
  let operations ← (← readRecords 0 [] file).foldlM insertNew ∅
  return { operations, file? := some file }

/-- Enters an operation and appends its record to the file. An operation that
is there already changes nothing, and a different one keeps its place. -/
def add (log : Translog) (operation : Operation) : Except TranslogError Translog :=
  if operation.seqNo < 0 then .error (.invalidSeqNo operation.seqNo)
  else
    match log.operations[operation.seqNo]? with
    | some existing =>
        if existing = operation then .ok log else .error (.duplicate operation.seqNo)
    | none =>
        .ok {
          operations := log.operations.insert operation.seqNo operation
          file? := log.file?.map (· ++ operation.record) }

/-- The highest sequence number in the log. -/
def maxSeqNo (log : Translog) : Int64 := log.operations.maxKey?.getD noOperations

def size (log : Translog) : Nat := log.operations.size

/-- The operations from one sequence number to another, both included, in
increasing order. -/
def range (log : Translog) (first last : Int64) : List Operation :=
  log.operations.toList.filterMap fun (seqNo, operation) =>
    if first ≤ seqNo ∧ seqNo ≤ last then some operation else none

end Translog

end ShardSync
