import ShardSync.Recovery.Target.Basic

/-!
# Making a recovery final

Received files take their live names in the order of these names, and live
files that were not announced are removed.
-/

set_option autoImplicit false

namespace ShardSync.Recovery

namespace Target

/-- Refuses to finish before all announced operations have been replayed. -/
def checkRecovered (target : Target) : Except Error Unit :=
  if target.opsRecovered = target.totalOps then .ok ()
  else .error <| .protocolViolation <|
    s!"finalize after {target.opsRecovered} of {target.totalOps} operations"

def announcedNames (target : Target) : List String :=
  target.incoming.keys ++ target.existing

end Target

namespace Receiving

/-- Makes the received files live and ends the recovery. -/
def finalize (globalCheckpoint : Int64) : Receiving Reply := do
  let target := (← get).target
  check (target.progress.expect .ops)
  check target.checkRecovered
  transition .finalize
  log .finalizeBegin []
  let received := target.incoming.toList
  received.forM fun (_, incoming) => do
    check (((← get).copy.store.sync incoming.tempName).mapError Error.ofStore)
  received.forM fun (name, incoming) => onStore (·.rename incoming.tempName name)
  let removed ← throughStore (·.removeStale target.announcedNames)
  modifyTarget fun target => { target with globalCheckpoint? := some globalCheckpoint }
  transition .done
  log .finalizeComplete [("local_checkpoint", toString target.localCheckpoint),
    ("global_checkpoint", toString globalCheckpoint),
    ("stale_files_removed", toString removed.length)]
  return .finalizeAck target.localCheckpoint

end Receiving

end ShardSync.Recovery
