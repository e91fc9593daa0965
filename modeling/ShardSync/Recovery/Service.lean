import ShardSync.Recovery.Target.Handle

/-!
# The recoveries of a node

A service knows the shards of its node and routes requests to the targets of
their recoveries. Starting a recovery of a shard supersedes the one that is
going on. A target is dropped when its recovery is over; the progress of the
last finished recovery of each shard is kept.

Stores and engines are held apart from the shards that use them. Two shards
may share a store, and a target goes on with the engine that its shard had
when the recovery was started, even if the shard has been given another one.
-/

set_option autoImplicit false

namespace ShardSync.Recovery

/-- Where a copy of a shard is found on its node. -/
structure Place where
  store : String
  engine : Nat
deriving Repr, DecidableEq

/-- What a node keeps for a shard. -/
structure Slot where
  place : Place
  /-- The recovery that was started last, unless it is over. -/
  active? : Option Int64 := none
  /-- The last recovery that is over, and its progress. -/
  finished? : Option (Int64 × Progress) := none

/-- A target in the registry, and the place of the copy that it works on. -/
structure Registered where
  target : Target
  place : Place

structure Service where
  node : NodeId
  stores : Std.ExtTreeMap String Store := ∅
  engines : Std.ExtTreeMap Nat Engine := ∅
  slots : Std.ExtTreeMap ShardId Slot := ∅
  targets : Std.ExtTreeMap Int64 Registered := ∅
  /-- How many recoveries the process has numbered, for this service or for another one. -/
  issued : Nat := 0
  journal : Log.Journal := {}

namespace Service

def copyAt (service : Service) (place : Place) : ShardCopy where
  store := service.stores.getD place.store {}
  engine := service.engines.getD place.engine {}

/-- Makes a shard recoverable: its files are in the named store, and `engine`
answers its searches. What was known of the shard is forgotten. -/
def register (service : Service) (shard : ShardId) (store : String) (engine : Engine) :
    Service :=
  let place : Place := { store, engine := service.engines.size }
  { service with
    engines := service.engines.insert place.engine engine
    slots := service.slots.insert shard { place } }

/-- The process numbers a recovery that is not one of this service. -/
def skipNumber (service : Service) : Service := { service with issued := service.issued + 1 }

/-- Changes the files of a store from outside of any recovery. -/
def modifyStore (service : Service) (name : String) (change : Store → Store) : Service :=
  { service with
    stores := service.stores.insert name (change (service.stores.getD name {})) }

def engine? (service : Service) (shard : ShardId) : Option Engine :=
  service.slots[shard]?.map fun slot => (service.copyAt slot.place).engine

/-- Changes what is kept for a shard, if the shard is known. -/
def modifySlot (service : Service) (shard : ShardId) (change : Slot → Slot) : Service :=
  { service with slots := service.slots.modify shard change }

def receiver (service : Service) (registered : Registered) : Receiver where
  target := registered.target
  copy := service.copyAt registered.place
  journal := service.journal

/-- Keeps what a target has done to its copy and to the journal. -/
def keep (service : Service) (place : Place) (receiver : Receiver) : Service :=
  { service with
    stores := service.stores.insert place.store receiver.copy.store
    engines := service.engines.insert place.engine receiver.copy.engine
    journal := receiver.journal }

/-- Ends the active recovery of a shard in favour of a new one. -/
def supersede (service : Service) (shard : ShardId) (successor : Int64) : Service :=
  match service.slots[shard]?.bind (·.active?) with
  | none => service
  | some previous =>
      let service := service.modifySlot shard fun slot => { slot with active? := none }
      match service.targets[previous]? with
      | none => service
      | some registered =>
          let service := { service with targets := service.targets.erase previous }
          let receiver := service.receiver registered
          let receiver :=
            if receiver.target.progress.isTerminal then receiver
            else
              (receiver.cancel s!"superseded by recovery [{successor}]").logLine <|
                .ofEvent .recoverySuperseded [("recovery_id", toString previous),
                  ("shard", shard.label), ("superseded_by", toString successor)]
          (service.keep registered.place receiver).modifySlot shard fun slot =>
            { slot with finished? := some (previous, receiver.target.progress) }

/-- Starts a recovery of a shard. The result is what has to be sent to the
source: the files that are there, and where the operations have to begin. -/
def startRecovery (service : Service) (shard : ShardId) (source : NodeId) :
    Except Error StartRequest × Service :=
  match service.slots[shard]? with
  | none =>
      (.error (.protocolViolation s!"shard {shard.label} is not hosted on {service.node.label}"),
        service)
  | some slot =>
      let recovery := Int64.ofNat (service.issued + 1)
      let service := { service with issued := service.issued + 1 }.supersede shard recovery
      let copy := service.copyAt slot.place
      match copy.store.liveFiles with
      | .error error => (.error (.ofStore error), service)
      | .ok files =>
          let registered : Registered := { target := { recovery, shard }, place := slot.place }
          let service :=
            { service with targets := service.targets.insert recovery registered }
          (.ok {
            recovery, shard, source, files
            target := service.node
            startSeqNo := .ofInt (copy.engine.localCheckpoint + 1) },
            service.modifySlot shard fun slot => { slot with active? := some recovery })

/-- The progress of a recovery: one that is going on, or the last one of a
shard that is over. -/
def progress? (service : Service) (recovery : Int64) : Option Progress :=
  match service.targets[recovery]? with
  | some registered => some registered.target.progress
  | none => service.slots.values.findSome? fun slot =>
      slot.finished?.bind fun (finished, progress) =>
        if finished = recovery then some progress else none

def openTargets (service : Service) : Nat := service.targets.size

def activeRecoveries (service : Service) : Nat :=
  service.targets.values.countP fun registered => !registered.target.progress.isTerminal

def retire (service : Service) (recovery : Int64) : Service :=
  match service.targets[recovery]? with
  | none => service
  | some registered =>
      { service with targets := service.targets.erase recovery }.modifySlot
        registered.target.shard fun slot =>
          { slot with
            active? := if slot.active? = some recovery then none else slot.active?
            finished? := some (recovery, registered.target.progress) }

def forget (service : Service) (recovery : Int64) : Bool × Service :=
  match service.slots.toList.find? (·.2.finished?.any (·.1 == recovery)) with
  | none => (false, service)
  | some (shard, _) =>
      (true, service.modifySlot shard fun slot => { slot with finished? := none })

/-- Forgets a recovery, unless it is unknown or going on. The result says
whether there was something to forget. -/
def remove (service : Service) (recovery : Int64) : Bool × Service :=
  match service.targets[recovery]? with
  | none => service.forget recovery
  | some registered =>
      if registered.target.progress.isTerminal then (service.retire recovery).forget recovery
      else (false, service)

/-- Routes a request to its target. A cancellation of an unknown recovery is
acknowledged, because what it asks for has happened. -/
def handle (service : Service) (request : Request) : Reply × Service :=
  match service.targets[request.recovery]? with
  | none =>
      match request with
      | .cancel _ _ _ => (.ack, service)
      | .step _ recovery _ _ =>
          (.ofError (.protocolViolation s!"unknown recovery [{recovery}]"), service)
  | some registered =>
      if registered.target.shard ≠ request.shard then
        (.ofError <| .protocolViolation <|
          s!"recovery [{request.recovery}] is for shard {registered.target.shard.label}, " ++
            s!"request names {request.shard.label}", service)
      else
        let (reply, receiver) := (service.receiver registered).handle request
        let service := (service.keep registered.place receiver)
        let service := { service with
          targets := service.targets.insert request.recovery
            { registered with target := receiver.target } }
        (reply,
          if receiver.target.progress.isTerminal then service.retire request.recovery
          else service)

def handleBytes (service : Service) (input : Bytes) : Bytes × Service :=
  match Request.decode input with
  | .error error => ((Reply.ofError (.ofDecoding error)).write, service)
  | .ok request =>
      let (reply, service) := service.handle request
      (reply.write, service)

end Service

end ShardSync.Recovery
