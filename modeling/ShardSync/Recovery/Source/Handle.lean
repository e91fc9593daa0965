import ShardSync.Recovery.Source.Steps

/-!
# Driving a session

The events of a session. A step that fails ends the recovery: the target is
told to give up, and when it has answered, or has not, the source's files are
released and the session is over.
-/

set_option autoImplicit false

namespace ShardSync.Recovery.Sender

def logLine (sender : Sender) (line : Log.Line) : Sender :=
  { sender with journal := sender.journal.log line }

def count (sender : Sender) (change : Log.Metrics → Log.Metrics) : Sender :=
  { sender with journal := sender.journal.count change }

def log (sender : Sender) (event : Log.Event) (fields : List (String × String)) : Sender :=
  sender.logLine (.ofEvent event (sender.delivery.session.logFields ++ fields))

def failScope (sender : Sender) (error : Error) : Sender :=
  match sender.delivery.scope? with
  | none => sender
  | some (scope, _) =>
      { sender.logLine (scope.failed error.message) with delivery.scope? := none }

/-- A failure with all that the session knows about where it arose. -/
def locate (sender : Sender) (error : Error) : Error :=
  let session := sender.delivery.session
  (error.inContext session.recovery session.shard).inPhase session.progress.phase

def fail (sender : Sender) (error : Error) : Sender :=
  let sender := sender.failScope error
  let error := sender.locate error
  let delivery := sender.delivery
  let session := delivery.session
  { sender with
    delivery := { delivery with
      session.progress := (session.progress.fail error.message error.isCancellation).2
      stage := .cancelling error
      outstanding := [{
        request := .cancel session.recovery session.shard error.detail
        timeout := delivery.settings.cancelGrace }] } }

def release (sender : Sender) : Sender :=
  match sender.delivery.snapshot? with
  | none => sender
  | some snapshot =>
      { sender with
        source.store := sender.source.store.release snapshot
        delivery.snapshot? := none }

def report (sender : Sender) : Except Error Int64 → Sender
  | .ok checkpoint =>
      let progress := sender.delivery.session.progress
      (sender.count fun metrics =>
        { metrics with recoveriesCompleted := metrics.recoveriesCompleted + 1 }).log
          .recoveryComplete [("local_checkpoint", toString checkpoint),
            ("bytes_transferred", toString (progress.bytesTransferred % UInt64.size)),
            ("ops_recovered", toString (progress.opsRecovered % UInt64.size))]
  | .error error =>
      let fields := [("code", error.kind.code), ("reason", error.detail)]
      if error.isCancellation then
        (sender.count fun metrics =>
          { metrics with recoveriesCancelled := metrics.recoveriesCancelled + 1 }).log
            .recoveryCancelled fields
      else
        (sender.count fun metrics =>
          { metrics with recoveriesFailed := metrics.recoveriesFailed + 1 }).log
            (if error.isFatal then .inconsistentSegment else .recoveryFailed) fields

/-- The session is over. -/
def finish (sender : Sender) (result : Except Error Int64) : Sender :=
  let sender := sender.release
  let sender := { sender with
    delivery.stage := .ended result
    delivery.outstanding := [] }
  sender.report result

/-- Takes in what came of a step. A session that would have to wait although
somebody has asked to stop does not wait. -/
def settle (outcome : Except Error (Option Int64) × Sender) : Sender :=
  match outcome with
  | (.error error, sender) => sender.fail error
  | (.ok (some checkpoint), sender) => sender.finish (.ok checkpoint)
  | (.ok none, sender) =>
      match sender.delivery.session.cancellation.check with
      | .ok () => sender
      | .error error => if sender.delivery.isWaiting then sender.fail error else sender

/-- The turn of a session has come, or it need not wait for it any more because
somebody has asked to stop. -/
def launch (sender : Sender) : Sender :=
  match sender.delivery.stage, sender.delivery.session.cancellation.check with
  | .queued, .error error => sender.fail error
  | .queued, .ok () =>
      let sender := { sender with delivery.isLaunched := true }
      let sender := (sender.count fun metrics =>
        { metrics with recoveriesStarted := metrics.recoveriesStarted + 1 }).log .recoveryBegin []
      settle ((do Sending.begin; return none : Sending (Option Int64)).start sender)
  | _, _ => sender

/-- Stops to wait for answers, if somebody has asked to stop. -/
def abandon (sender : Sender) : Sender := settle (.ok none, sender)

/-- Takes the answer to one of the outstanding requests, counted from the
oldest. -/
def receive (sender : Sender) (index : Nat) (answer : Except Error Reply) : Sender :=
  match sender.delivery.outstanding[index]? with
  | none => sender
  | some { request, .. } =>
      let waiting := { sender with
        delivery.outstanding := sender.delivery.outstanding.eraseIdx index }
      match sender.delivery.stage, answer with
      | .cancelling error, _ => waiting.finish (.error error)
      | _, .error error => waiting.fail error
      | _, .ok reply => settle ((Sending.proceed request reply).start waiting)

end ShardSync.Recovery.Sender
