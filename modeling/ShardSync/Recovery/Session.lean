import ShardSync.Recovery.Message
import ShardSync.Recovery.Progress

/-!
# Sessions

A session is one attempt to bring a shard on one node in line with its copy on
another, as the source sees it. It may be asked to stop; only the first reason
counts.
-/

set_option autoImplicit false

namespace ShardSync.Recovery

/-- Whether somebody has asked to stop, and why. -/
structure Cancellation where
  reason? : Option String := none
deriving Repr, DecidableEq

namespace Cancellation

/-- Asks to stop. The result says whether nobody had asked before. -/
def cancel (cancellation : Cancellation) (reason : String) : Bool × Cancellation :=
  match cancellation.reason? with
  | none => (true, ⟨some reason⟩)
  | some _ => (false, cancellation)

def isCancelled (cancellation : Cancellation) : Bool := cancellation.reason?.isSome

def check (cancellation : Cancellation) : Except Error Unit :=
  match cancellation.reason? with
  | none => .ok ()
  | some reason => .error (.cancelled reason)

end Cancellation

structure Session where
  recovery : Int64
  shard : ShardId
  source : NodeId
  target : NodeId
  /-- The first sequence number that the target lacks. -/
  startSeqNo : Int64
  cancellation : Cancellation := {}
  progress : Progress := {}
  /-- The number of requests that have been numbered. -/
  numbered : Nat := 0
deriving Repr, DecidableEq

namespace Session

def ofStart (start : StartRequest) (cancellation : Cancellation := {}) : Session where
  recovery := start.recovery
  shard := start.shard
  source := start.source
  target := start.target
  startSeqNo := start.startSeqNo
  cancellation

def number (session : Session) : Int64 × Session :=
  (.ofNat session.numbered, { session with numbered := session.numbered + 1 })

/-- What every log line about the session says. -/
def logFields (session : Session) : List (String × String) := [
  ("recovery_id", toString session.recovery),
  ("shard", session.shard.label),
  ("source_node", session.source.name),
  ("target_node", session.target.name)]

end Session

end ShardSync.Recovery
