import ShardSync.Log.Line
import ShardSync.Log.Metrics

/-!
# Journals

What a node has to tell about its recoveries: the counters, and the lines that
were logged, oldest first. Which lines are written is decided by whoever
writes them.
-/

set_option autoImplicit false

namespace ShardSync.Log

structure Journal where
  metrics : Metrics := {}
  lines : List Line := []
deriving Repr, DecidableEq

namespace Journal

def log (journal : Journal) (line : Line) : Journal :=
  { journal with lines := journal.lines ++ [line] }

def count (journal : Journal) (change : Metrics → Metrics) : Journal :=
  { journal with metrics := change journal.metrics }

@[simp] theorem metrics_log (journal : Journal) (line : Line) :
    (journal.log line).metrics = journal.metrics := rfl

@[simp] theorem lines_count (journal : Journal) (change : Metrics → Metrics) :
    (journal.count change).lines = journal.lines := rfl

end Journal

end ShardSync.Log
