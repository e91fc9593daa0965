import ShardSync.Proofs.Recovery.Registry

/-!
# Callers that share a service

A caller that hands in a request takes three steps: it looks the target of the recovery
up, the target answers the request, and a target that is over is retired. Other callers
may take steps in between, and other recoveries may be started. So a target may be
asked, or be retired, when it has been dropped from the registry long since.

As long as the numbers of recoveries last a number stands for one target, so a caller
that holds a target is one that knows its number.
-/

set_option autoImplicit false

namespace ShardSync.Recovery

/-- How far a caller has got with a request. -/
inductive Caller where
  | idle (reply? : Option Reply)
  /-- It has looked up the target of the request. -/
  | holding (request : Request)
  /-- It has its reply, and the target is over. -/
  | retiring (recovery : Int64) (reply : Reply)
deriving Repr, DecidableEq

structure Shared where
  service : Service
  /-- The targets that have been dropped from the registry. -/
  dropped : Int64 → Option Registered := fun _ => none
  callers : Nat → Caller := fun _ => .idle none

/-- A step that nothing else comes in between. -/
inductive Move where
  | register (shard : ShardId) (store : String) (engine : Engine)
  | start (shard : ShardId) (source : NodeId)
  | lookUp (caller : Nat) (request : Request)
  | work (caller : Nat)
  | retire (caller : Nat)
  /-- The process numbers a recovery of another service. -/
  | elsewhere

/-- The reply to a request that finds no target. -/
def Request.ofUnknown : Request → Reply
  | .cancel _ _ _ => .ack
  | .step _ recovery _ _ => .ofError (.protocolViolation s!"unknown recovery [{recovery}]")

/-- The reply to a request that finds the target of another shard. -/
def Request.ofMisdirected (request : Request) (shard : ShardId) : Reply :=
  .ofError <| .protocolViolation <|
    s!"recovery [{request.recovery}] is for shard {shard.label}, " ++
      s!"request names {request.shard.label}"

/-- The active recovery of a shard, and how it is left when another one is started. -/
def Service.displacedBy (service : Service) (shard : ShardId) : Option (Int64 × Registered) :=
  (service.activeOf shard).bind fun previous =>
    service.targets[previous]?.map fun registered =>
      let receiver := service.displaced shard previous (.ofNat (service.issued + 1)) registered
      (previous, { registered with target := receiver.target })

namespace Shared

/-- The target of a recovery, in the registry or out of it. -/
def target? (shared : Shared) (recovery : Int64) : Option Registered :=
  shared.service.targets[recovery]?.or (shared.dropped recovery)

def setCaller (shared : Shared) (caller : Nat) (state : Caller) : Shared :=
  { shared with callers := Function.update shared.callers caller state }

def drop (shared : Shared) (recovery : Int64) (registered : Registered) : Shared :=
  { shared with dropped := Function.update shared.dropped recovery (some registered) }

def start (shared : Shared) (shard : ShardId) (source : NodeId) : Shared :=
  { (match shared.service.displacedBy shard with
    | none => shared
    | some (previous, registered) => shared.drop previous registered) with
    service := (shared.service.startRecovery shard source).2 }

def lookUp (shared : Shared) (caller : Nat) (request : Request) : Shared :=
  match shared.callers caller with
  | .idle _ =>
      shared.setCaller caller <|
        match shared.service.targets[request.recovery]? with
        | none => .idle (some request.ofUnknown)
        | some _ => .holding request
  | _ => shared

/-- What a target has done is kept, whether it is registered or not. -/
def worked (shared : Shared) (recovery : Int64) (registered : Registered) (receiver : Receiver) :
    Shared :=
  match shared.service.targets[recovery]? with
  | some _ => { shared with service := shared.service.worked recovery registered receiver }
  | none =>
      { shared.drop recovery { registered with target := receiver.target } with
        service := shared.service.keep registered.place receiver }

def work (shared : Shared) (caller : Nat) : Shared :=
  match shared.callers caller with
  | .holding request =>
      match shared.target? request.recovery with
      | none => shared
      | some registered =>
          if registered.target.shard ≠ request.shard then
            shared.setCaller caller (.idle (some (request.ofMisdirected registered.target.shard)))
          else
            let (reply, receiver) := (shared.service.receiver registered).handle request
            (shared.worked request.recovery registered receiver).setCaller caller <|
              if receiver.isOver then .retiring request.recovery reply else .idle (some reply)
  | _ => shared

/-- A target is dropped from the registry, if it has not been before. -/
def retired (shared : Shared) (recovery : Int64) : Shared :=
  { (match shared.service.targets[recovery]? with
    | none => shared
    | some registered => shared.drop recovery registered) with
    service := shared.service.retire recovery }

def retire (shared : Shared) (caller : Nat) : Shared :=
  match shared.callers caller with
  | .retiring recovery reply => (shared.retired recovery).setCaller caller (.idle (some reply))
  | _ => shared

def next (shared : Shared) : Move → Shared
  | .register shard store engine =>
      { shared with service := shared.service.register shard store engine }
  | .start shard source => shared.start shard source
  | .lookUp caller request => shared.lookUp caller request
  | .work caller => shared.work caller
  | .retire caller => shared.retire caller
  | .elsewhere => { shared with service := shared.service.skipNumber }

/-- What some moves lead to. There are files in the stores, and no shard is known. -/
def run (node : NodeId) (stores : Std.ExtTreeMap String Store) (moves : List Move) : Shared :=
  moves.foldl next { service := { node, stores } }

theorem run_concat (node : NodeId) (stores : Std.ExtTreeMap String Store) (moves : List Move)
    (move : Move) : run node stores (moves ++ [move]) = (run node stores moves).next move := by
  simp [run]

variable {shared : Shared} {caller : Nat} {request : Request} {recovery : Int64}
  {registered : Registered}

theorem target?_of_registered (there : shared.service.targets[recovery]? = some registered) :
    shared.target? recovery = some registered := by
  rw [target?, there, Option.some_or]

theorem target?_of_unregistered (gone : shared.service.targets[recovery]? = none) :
    shared.target? recovery = shared.dropped recovery := by
  rw [target?, gone, Option.none_or]

theorem callers_setCaller (shared : Shared) (caller other : Nat) (state : Caller) :
    (shared.setCaller caller state).callers other =
      if other = caller then state else shared.callers other :=
  Function.update_apply ..

theorem dropped_drop (shared : Shared) (recovery other : Int64) (registered : Registered) :
    (shared.drop recovery registered).dropped other =
      if recovery = other then some registered else shared.dropped other :=
  (Function.update_apply ..).trans (if_congr eq_comm rfl rfl)

theorem work_of_own (holds : shared.callers caller = .holding request)
    (there : shared.target? request.recovery = some registered)
    (own : registered.target.shard = request.shard) :
    shared.work caller =
      (shared.worked request.recovery registered
        ((shared.service.receiver registered).handle request).2).setCaller caller
          (if ((shared.service.receiver registered).handle request).2.isOver then
            .retiring request.recovery ((shared.service.receiver registered).handle request).1
          else .idle (some ((shared.service.receiver registered).handle request).1)) := by
  rw [work, holds]
  dsimp only
  rw [there]
  dsimp only
  rw [if_neg (fun other => other own)]

theorem work_of_other (holds : shared.callers caller = .holding request)
    (there : shared.target? request.recovery = some registered)
    (other : registered.target.shard ≠ request.shard) :
    shared.work caller =
      shared.setCaller caller (.idle (some (request.ofMisdirected registered.target.shard))) := by
  rw [work, holds]
  dsimp only
  rw [there]
  dsimp only
  rw [if_pos other]

theorem worked_of_registered {receiver : Receiver} {current : Registered}
    (there : shared.service.targets[recovery]? = some current) :
    shared.worked recovery registered receiver =
      { shared with service := shared.service.worked recovery registered receiver } := by
  rw [worked, there]

theorem worked_of_unregistered {receiver : Receiver}
    (gone : shared.service.targets[recovery]? = none) :
    shared.worked recovery registered receiver =
      { shared.drop recovery { registered with target := receiver.target } with
        service := shared.service.keep registered.place receiver } := by
  rw [worked, gone]

theorem retired_of_registered (there : shared.service.targets[recovery]? = some registered) :
    shared.retired recovery =
      { shared.drop recovery registered with service := shared.service.retire recovery } := by
  rw [retired, there]

theorem retired_of_unregistered (gone : shared.service.targets[recovery]? = none) :
    shared.retired recovery = { shared with service := shared.service.retire recovery } := by
  rw [retired, gone]

/-- A caller that nobody comes in between gets what the service answers. -/
theorem handle_alone {reply? : Option Reply} (idle : shared.callers caller = .idle reply?) :
    let after := ((shared.lookUp caller request).work caller).retire caller
    after.service = (shared.service.handle request).2 ∧
      after.callers caller = .idle (some (shared.service.handle request).1) := by
  have held (shared : Shared) (state : Caller) :
      (shared.setCaller caller state).callers caller = state := by
    rw [callers_setCaller, if_pos rfl]
  dsimp only
  cases there : shared.service.targets[request.recovery]? with
  | none =>
      have replied : shared.service.handle request = (request.ofUnknown, shared.service) := by
        cases request <;> (rw [Service.handle, there]; rfl)
      have looked : shared.lookUp caller request =
          shared.setCaller caller (.idle (some request.ofUnknown)) := by
        rw [lookUp, idle, there]
      rw [looked, work, held]
      dsimp only
      rw [retire, held, replied]
      exact ⟨rfl, held _ _⟩
  | some registered =>
      have looked : shared.lookUp caller request = shared.setCaller caller (.holding request) := by
        rw [lookUp, idle, there]
      have found : (shared.setCaller caller (.holding request)).target? request.recovery =
          some registered :=
        target?_of_registered there
      rw [looked]
      by_cases own : registered.target.shard = request.shard
      · rw [work_of_own (held _ _) found own, Service.handle_of_registered there own]
        generalize answered : (shared.service.receiver registered).handle request = outcome
        have answered : ((shared.setCaller caller (.holding request)).service.receiver
            registered).handle request = outcome := answered
        rw [answered, @worked_of_registered (shared.setCaller caller (.holding request)) _ _ _ _ there]
        cases ended : outcome.2.isOver with
        | false =>
            rw [if_neg Bool.false_ne_true, if_neg Bool.false_ne_true, retire, held]
            exact ⟨rfl, held _ _⟩
        | true =>
            rw [if_pos rfl, if_pos rfl, retire, held]
            exact ⟨rfl, held _ _⟩
      · have replied : shared.service.handle request =
            (request.ofMisdirected registered.target.shard, shared.service) := by
          unfold Service.handle
          rw [there]
          dsimp only
          rw [if_pos own]
          rfl
        rw [work_of_other (held _ _) found own, retire, held, replied]
        exact ⟨rfl, held _ _⟩

/-- What a move comes to. -/
inductive Takes (shared : Shared) : Move → Shared → Prop where
  | none (move : Move) : Takes shared move shared
  | registers (shard : ShardId) (store : String) (engine : Engine) :
      Takes shared (.register shard store engine)
        { shared with service := shared.service.register shard store engine }
  | starts (shard : ShardId) (source : NodeId) :
      Takes shared (.start shard source) (shared.start shard source)
  | turns (move : Move) (caller : Nat) {state : Caller}
      (waiting : ∀ recovery reply, state ≠ .retiring recovery reply) :
      Takes shared move (shared.setCaller caller state)
  | works {caller : Nat} {request : Request} {registered : Registered}
      (holds : shared.callers caller = .holding request)
      (there : shared.target? request.recovery = some registered) {reply : Reply}
      {receiver : Receiver}
      (answer : (shared.service.receiver registered).Answer request reply receiver) :
      Takes shared (.work caller) <|
        (shared.worked request.recovery registered receiver).setCaller caller <|
          if receiver.isOver then .retiring request.recovery reply else .idle (some reply)
  | retires {caller : Nat} {recovery : Int64} {reply : Reply}
      (holds : shared.callers caller = .retiring recovery reply) :
      Takes shared (.retire caller)
        ((shared.retired recovery).setCaller caller (.idle (some reply)))
  | skips : Takes shared .elsewhere { shared with service := shared.service.skipNumber }

theorem takes_next (shared : Shared) (move : Move) : shared.Takes move (shared.next move) := by
  cases move with
  | register shard store engine => exact .registers shard store engine
  | start shard source => exact .starts shard source
  | lookUp caller request =>
      simp only [next, lookUp]
      cases shared.callers caller with
      | idle =>
          cases shared.service.targets[request.recovery]? with
          | none => exact .turns _ caller fun _ _ => nofun
          | some => exact .turns _ caller fun _ _ => nofun
      | holding => exact .none _
      | retiring => exact .none _
  | work caller =>
      simp only [next]
      cases holds : shared.callers caller with
      | holding request =>
          cases there : shared.target? request.recovery with
          | none =>
              rw [work, holds]
              dsimp only
              rw [there]
              exact .none _
          | some registered =>
              by_cases own : registered.target.shard = request.shard
              · rw [work_of_own holds there own]
                exact .works holds there (Receiver.answer_handle _ request)
              · rw [work_of_other holds there own]
                exact .turns _ caller fun _ _ => nofun
      | idle =>
          rw [work, holds]
          exact .none _
      | retiring =>
          rw [work, holds]
          exact .none _
  | retire caller =>
      simp only [next, retire]
      cases holds : shared.callers caller with
      | retiring => exact .retires holds
      | idle => exact .none _
      | holding => exact .none _
  | elsewhere => exact .skips

end Shared

end ShardSync.Recovery
