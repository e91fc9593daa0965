import ShardSync.Log.Metrics
import ShardSync.Recovery.Error

/-!
# Progress of a recovery

The phase that one side of a recovery is in, what it has counted, and why it
failed. A transition that is not allowed is refused and changes nothing.
-/

set_option autoImplicit false

namespace ShardSync.Recovery

structure Progress where
  phase : Phase := .init
  filesTotal : Nat := 0
  filesSent : Nat := 0
  filesReused : Nat := 0
  bytesTotal : Nat := 0
  bytesTransferred : Nat := 0
  bytesReused : Nat := 0
  opsTotal : Nat := 0
  opsRecovered : Nat := 0
  opsSkipped : Nat := 0
  isCancelled : Bool := false
  failure? : Option String := none
deriving Repr, DecidableEq

namespace Progress

def isTerminal (progress : Progress) : Bool := progress.phase.isTerminal

def transition (progress : Progress) (next : Phase) : Except Error Progress :=
  if progress.phase.mayBecome next then .ok { progress with phase := next }
  else
    .error <| (Error.protocolViolation
      s!"illegal phase transition {progress.phase.name} -> {next.name}").inPhase progress.phase

/-- Succeeds in the given phase only. -/
def expect (progress : Progress) (phase : Phase) : Except Error Unit :=
  if progress.phase = phase then .ok ()
  else
    .error <| (Error.protocolViolation
      s!"expected phase {phase.name} but recovery is in {progress.phase.name}").inPhase
        progress.phase

/-- Ends the recovery in failure, unless it is over. The result says whether
this was the failure that ended it. -/
def fail (progress : Progress) (description : String) (cancelled : Bool) : Bool × Progress :=
  match progress.transition .failed with
  | .error _ => (false, progress)
  | .ok progress =>
      (true, { progress with
        isCancelled := progress.isCancelled || cancelled
        failure? := progress.failure? <|> some description })

def setFileTotals (progress : Progress) (filesTotal filesReused bytesTotal bytesReused : Nat) :
    Progress :=
  { progress with filesTotal, filesReused, bytesTotal, bytesReused }

/-- The progress as a report. A failure is reported if there is one. -/
def json (progress : Progress) : Json :=
  .object <| [
    ("phase", .text progress.phase.name),
    ("files_total", Log.counter progress.filesTotal),
    ("files_sent", Log.counter progress.filesSent),
    ("files_reused", Log.counter progress.filesReused),
    ("bytes_total", Log.counter progress.bytesTotal),
    ("bytes_transferred", Log.counter progress.bytesTransferred),
    ("bytes_reused", Log.counter progress.bytesReused),
    ("ops_total", Log.counter progress.opsTotal),
    ("ops_recovered", Log.counter progress.opsRecovered),
    ("ops_skipped", Log.counter progress.opsSkipped),
    ("cancelled", .bool progress.isCancelled)] ++
    (progress.failure?.map fun failure => ("failure", Json.text failure)).toList

end Progress

end ShardSync.Recovery
