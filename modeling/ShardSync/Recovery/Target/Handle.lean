import ShardSync.Recovery.Target.Files
import ShardSync.Recovery.Target.Finalize
import ShardSync.Recovery.Target.Operations

/-!
# Handling requests

Every request gets a reply. A step that fails ends the recovery; a recovery
that is over takes no more steps.
-/

set_option autoImplicit false

namespace ShardSync.Recovery

def Command.perform : Command → Receiving Reply
  | .announce announcement totalOps => Receiving.announce announcement totalOps
  | .transfer chunk _ => Receiving.transfer chunk
  | .filesComplete startSeqNo totalOps => Receiving.filesComplete startSeqNo totalOps
  | .replay operations totalOps => Receiving.replay operations totalOps
  | .finalize globalCheckpoint => Receiving.finalize globalCheckpoint

namespace Receiver

def logLine (receiver : Receiver) (line : Log.Line) : Receiver :=
  { receiver with journal := receiver.journal.log line }

def log (receiver : Receiver) (event : Log.Event) (fields : List (String × String)) : Receiver :=
  receiver.logLine (.ofEvent event (receiver.target.logFields ++ fields))

def warning (receiver : Receiver) (event reason : String) : Log.Line where
  severity := .warn
  event
  fields := [("recovery_id", toString receiver.target.recovery), ("reason", reason)]

def removeTemps (receiver : Receiver) : Receiver :=
  let (outcome, store) := receiver.copy.store.removeTemps receiver.target.recovery
  let receiver := { receiver with copy.store := store }
  match outcome with
  | .ok _ => receiver
  | .error error =>
      receiver.logLine (receiver.warning "RECOVERY_TEMP_CLEANUP_FAILED" error.message)

/-- The engine on the segments of the live files. -/
def liveEngine (copy : ShardCopy) : Except Error Engine := do
  (copy.engine.prepare (← loadSegments copy.store)).mapError Error.ofEngine

/-- Takes segments that are not live away from the engine. -/
def restoreEngine (receiver : Receiver) : Receiver :=
  if receiver.target.hasStaged then
    let receiver := { receiver with target.hasStaged := false }
    match liveEngine receiver.copy with
    | .ok engine => { receiver with copy.engine := engine }
    | .error error =>
        receiver.logLine (receiver.warning "RECOVERY_ENGINE_RESTORE_FAILED" error.message)
  else receiver

/-- Ends the recovery in failure, unless it is over, and logs the failure. -/
def abort (receiver : Receiver) (description : String) (cancelled : Bool) (event : Log.Event)
    (fields : List (String × String)) : Receiver :=
  let receiver := receiver.removeTemps.restoreEngine
  let (ended, progress) := receiver.target.progress.fail description cancelled
  let receiver := { receiver with target.progress := progress }
  if ended then receiver.log event fields else receiver

/-- Gives the recovery up. Nothing happens if it is over. -/
def cancel (receiver : Receiver) (reason : String) : Receiver :=
  if receiver.target.progress.isTerminal then receiver
  else receiver.abort reason true .recoveryCancelled [("reason", reason)]

def failureEvent (error : Error) : Log.Event :=
  if error.isFatal then .inconsistentSegment
  else if error.isCancellation then .recoveryCancelled
  else .recoveryFailed

def fail (receiver : Receiver) (error : Error) : Receiver :=
  receiver.abort error.message error.isCancellation (failureEvent error)
    [("code", error.kind.code), ("reason", error.detail)]

/-- A failure with all that the target knows about where it arose. -/
def locate (receiver : Receiver) (error : Error) : Error :=
  (error.inContext receiver.target.recovery receiver.target.shard).inPhase
    receiver.target.progress.phase

def handle (receiver : Receiver) (request : Request) : Reply × Receiver :=
  match request with
  | .cancel _ _ reason => (.ack, receiver.cancel reason)
  | .step _ _ _ command =>
      let progress := receiver.target.progress
      if progress.isTerminal then
        (.ofError (receiver.locate <|
          .protocolViolation s!"recovery is already {progress.phase.name}"), receiver)
      else
        match command.perform.start receiver with
        | (.ok reply, receiver) => (reply, receiver)
        | (.error error, receiver) =>
            let error := receiver.locate error
            (.ofError error, receiver.fail error)

end Receiver

end ShardSync.Recovery
