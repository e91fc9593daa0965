/-!
# Severities

How much attention a log line asks for.
-/

set_option autoImplicit false

namespace ShardSync.Log

inductive Severity where
  | trace
  | info
  | warn
  | error
  | fatal
deriving Repr, DecidableEq, Inhabited

namespace Severity

def name : Severity → String
  | .trace => "TRACE"
  | .info => "INFO"
  | .warn => "WARN"
  | .error => "ERROR"
  | .fatal => "FATAL"

/-- Position in increasing order of gravity. -/
def rank : Severity → Nat
  | .trace => 0
  | .info => 1
  | .warn => 2
  | .error => 3
  | .fatal => 4

def ofName? (name : String) : Option Severity :=
  [trace, info, warn, error, fatal].find? (·.name == name)

/-- Whether lines of this severity are written when `lowest` is the least
severity asked for. -/
def passes (severity lowest : Severity) : Bool :=
  lowest.rank ≤ severity.rank

end Severity

end ShardSync.Log
