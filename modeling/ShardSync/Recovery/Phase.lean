/-!
# Phases of a recovery

Files are transferred first, then operations are replayed, then the result is
made final. Every phase that is not terminal may end in failure.
-/

set_option autoImplicit false

namespace ShardSync.Recovery

inductive Phase where
  | init
  | files
  | ops
  | finalize
  | done
  | failed
deriving Repr, DecidableEq, Inhabited

namespace Phase

def all : List Phase := [init, files, ops, finalize, done, failed]

def name : Phase → String
  | .init => "INIT"
  | .files => "FILES"
  | .ops => "OPS"
  | .finalize => "FINALIZE"
  | .done => "DONE"
  | .failed => "FAILED"

def ofName? (name : String) : Option Phase :=
  all.find? (·.name == name)

def isTerminal : Phase → Bool
  | .done | .failed => true
  | _ => false

def mayBecome : Phase → Phase → Bool
  | .init, .files | .files, .ops | .ops, .finalize | .finalize, .done => true
  | phase, .failed => !phase.isTerminal
  | _, _ => false

end Phase

end ShardSync.Recovery
