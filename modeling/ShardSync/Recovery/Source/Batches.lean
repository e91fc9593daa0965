import ShardSync.Recovery.Settings
import ShardSync.Translog.Operation

/-!
# Dividing a history into batches

Operations are sent in batches that are bounded in number and in size. An
operation that exceeds the size on its own is a batch of its own. A gap in the
sequence numbers ends the division; what has been collected for a batch is not
sent then.
-/

set_option autoImplicit false

namespace ShardSync.Recovery

/-- A place where a history is not contiguous. -/
structure Gap where
  expected : Int
  actual : Int
deriving Repr, DecidableEq

/-- The batches to send, and the gap behind them if there is one. -/
structure Batches where
  batches : List (List Operation) := []
  gap? : Option Gap := none
deriving Repr, DecidableEq

namespace Batches

def push (batch : List Operation) (rest : Batches) : Batches :=
  { rest with batches := batch :: rest.batches }

/-- Whether an operation of `size` bytes has no room in a batch with the given
operations, which have `bytes` bytes together. -/
def isFull (settings : Settings) (batch : List Operation) (bytes size : Nat) : Bool :=
  !batch.isEmpty &&
    (settings.batchOperations ≤ batch.length || settings.batchBytes < bytes + size)

/-- Divides the operations, which have to begin at `expected`. The batch that
has been begun comes first. -/
def divide (settings : Settings) (expected : Int) (batch : List Operation) (bytes : Nat) :
    List Operation → Batches
  | [] => { batches := if batch.isEmpty then [] else [batch] }
  | operation :: operations =>
      let seqNo := operation.seqNo.toInt
      let size := operation.estimatedSize
      if seqNo ≠ expected then { gap? := some { expected, actual := seqNo } }
      else if isFull settings batch bytes size then
        (divide settings (expected + 1) [operation] size operations).push batch
      else divide settings (expected + 1) (batch ++ [operation]) (bytes + size) operations

/-- Divides a history that has to begin at the given sequence number. -/
def ofHistory (settings : Settings) (startSeqNo : Int) (operations : List Operation) : Batches :=
  divide settings startSeqNo [] 0 operations

end Batches

end ShardSync.Recovery
