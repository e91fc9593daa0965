import ShardSync.Command.Error
import ShardSync.Log.Metrics
import ShardSync.Recovery.Progress

/-!
# Reports of a recovery

What a local recovery prints: how it ended, how far either side has come, and
what was counted. A recovery that failed is reported like one that did not.
-/

set_option autoImplicit false

namespace ShardSync.Command

structure Report where
  recovery : Int64
  shard : ShardId
  /-- The checkpoint that the target has reached, or why it has not. -/
  result : Except Recovery.Error Int64
  source : Recovery.Progress
  target? : Option Recovery.Progress
  metrics : Log.Metrics

namespace Report

def outcome (report : Report) : String × Json :=
  match report.result with
  | .ok checkpoint => ("local_checkpoint", .int checkpoint.toInt)
  | .error error => ("error", .text error.message)

def json (report : Report) : Json :=
  .object <| [
    ("recovery_id", .int report.recovery.toInt),
    ("shard", .text report.shard.label),
    report.outcome,
    ("source", report.source.json)] ++
    (report.target?.map fun target => ("target", target.json)).toList ++
    [("metrics", report.metrics.json)]

end Report

end ShardSync.Command
