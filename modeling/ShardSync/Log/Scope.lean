import ShardSync.Log.Line

/-!
# Scopes

A scope is a piece of work that is logged when it begins and when it ends. Its
fields are repeated in each of its lines.
-/

set_option autoImplicit false

namespace ShardSync.Log

structure Scope where
  name : String
  fields : List (String × String) := []
deriving Repr, DecidableEq

namespace Scope

def opened (scope : Scope) : Line where
  severity := .info
  event := scope.name ++ "_BEGIN"
  fields := scope.fields

/-- The line that closes the scope after success: what came out, and how many
milliseconds it took. -/
def completed (scope : Scope) (results : List (String × String)) (elapsed : Nat) : Line where
  severity := .info
  event := scope.name ++ "_COMPLETE"
  fields := scope.fields ++ results ++ [("elapsed_ms", toString elapsed)]

/-- The line that closes the scope after a failure, which is an error or worse. -/
def failed (scope : Scope) (reason : String) (severity : Severity := .error) : Line where
  severity
  event := scope.name ++ "_FAILED"
  fields := scope.fields ++ [("reason", reason)]

/-- The line for a scope that was given up without being closed. -/
def dropped (scope : Scope) : Line where
  severity := .warn
  event := scope.name ++ "_INCOMPLETE"
  fields := scope.fields ++ [("reason", "scope dropped without completion")]

end Scope

end ShardSync.Log
