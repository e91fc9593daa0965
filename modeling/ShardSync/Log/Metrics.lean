import ShardSync.Json.Basic

/-!
# Metrics

Counters of all recoveries of a node. They only grow. A counter is reported
with its 64 lowest bits.
-/

set_option autoImplicit false

namespace ShardSync.Log

def counter (value : Nat) : Json := .ofNat (value % UInt64.size)

structure Metrics where
  recoveriesStarted : Nat := 0
  recoveriesCompleted : Nat := 0
  recoveriesFailed : Nat := 0
  recoveriesCancelled : Nat := 0
  filesSent : Nat := 0
  /-- Files that the source did not have to send. -/
  filesReused : Nat := 0
  bytesSent : Nat := 0
  opsReplayed : Nat := 0
  opsSkipped : Nat := 0
  /-- Chunks and files whose checksum was not the announced one. -/
  chunkMismatches : Nat := 0
deriving Repr, DecidableEq

def Metrics.json (metrics : Metrics) : Json :=
  .object [
    ("recoveries_started", counter metrics.recoveriesStarted),
    ("recoveries_completed", counter metrics.recoveriesCompleted),
    ("recoveries_failed", counter metrics.recoveriesFailed),
    ("recoveries_cancelled", counter metrics.recoveriesCancelled),
    ("files_sent", counter metrics.filesSent),
    ("files_reused", counter metrics.filesReused),
    ("bytes_sent", counter metrics.bytesSent),
    ("ops_replayed", counter metrics.opsReplayed),
    ("ops_skipped", counter metrics.opsSkipped),
    ("chunk_mismatches", counter metrics.chunkMismatches)]

end ShardSync.Log
