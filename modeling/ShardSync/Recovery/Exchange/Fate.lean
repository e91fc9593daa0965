import ShardSync.Recovery.Exchange.Basic

/-!
# What becomes of requests

A request may be lost, delivered twice or damaged on its way, and its reply
may be lost or replaced. Whatever happens, the source gets an answer, unless
it has been asked to stop and need not wait for one.
-/

set_option autoImplicit false

namespace ShardSync.Recovery

inductive Fate where
  /-- Delivered and answered. -/
  | delivered
  /-- Delivered twice; the second reply is the answer. -/
  | doubled
  /-- Delivered with another first byte of its content, if it is a chunk. -/
  | damaged
  /-- Delivered, but the source gets the given reply. -/
  | misanswered (reply : Reply)
  /-- Not delivered; the source gets the given reply. -/
  | intercepted (reply : Reply)
  /-- Not delivered, because the connection fails. -/
  | broken (detail : String)
  /-- Not delivered, and no answer comes in time. -/
  | timedOut
  /-- Delivered and answered, after the session has been asked to stop. -/
  | stopped (reason : String)
  /-- Not delivered; the session is asked to stop and waits no more. -/
  | abandoned (reason : String)
deriving Repr, DecidableEq

/-- A request that was sent, and the answer that its session got. -/
structure Passage where
  request : Request
  timeout : Nat
  answer? : Option (Except Error Reply)

/-- The request as it arrives if it is damaged on the way. -/
def Request.damage (request : Request) : Request :=
  match request with
  | .step number recovery shard (.transfer chunk totalOps) =>
      let content := match chunk.content with
        | [] => []
        | byte :: bytes => (byte ^^^ 0xFF) :: bytes
      .step number recovery shard (.transfer { chunk with content } totalOps)
  | _ => request

namespace Exchange

/-- The answer to a request, or none if nobody waits for it. -/
def suffer (exchange : Exchange) (recovery : Int64) (sent : Outstanding) (fate : Fate) :
    Option (Except Error Reply) × Exchange :=
  let through (exchange : Exchange) (request : Request) :=
    let (answer, exchange) := exchange.deliver request
    (some answer, exchange)
  match fate with
  | .delivered => through exchange sent.request
  | .doubled => through (exchange.deliver sent.request).2 sent.request
  | .damaged => through exchange sent.request.damage
  | .misanswered reply => (some (.ok reply), (exchange.deliver sent.request).2)
  | .intercepted reply => (some (.ok reply), exchange)
  | .broken detail => (some (.error (.transport detail)), exchange)
  | .timedOut => (some (.error (.timeout sent.request.action sent.timeout)), exchange)
  | .stopped reason => through (exchange.cancel recovery reason).2 sent.request
  | .abandoned reason => (none, (exchange.cancel recovery reason).2)

/-- Passes the oldest request of a session on. -/
def pass (exchange : Exchange) (recovery : Int64) (sent : Outstanding) (fate : Fate) :
    Passage × Exchange :=
  let (answer?, exchange) := exchange.suffer recovery sent fate
  ({ sent with answer? },
    match answer? with
    | some answer => exchange.receive recovery answer
    | none => exchange.abandon recovery)

/-- Passes up to `count` requests of a session on, whose fates are given by
their positions from `position` on. -/
def drive (recovery : Int64) (fate : Nat → Fate) : Nat → Nat → Exchange → List Passage × Exchange
  | 0, _, exchange => ([], exchange)
  | count + 1, position, exchange =>
      match exchange.next? recovery with
      | none => ([], exchange)
      | some sent =>
          let (passage, exchange) := exchange.pass recovery sent (fate position)
          let (passages, exchange) := drive recovery fate count (position + 1) exchange
          (passage :: passages, exchange)

/-- No session sends more requests than this: one for each chunk and each
batch, and those that open and close the phases or give the recovery up. -/
def mostRequests (delivery : Delivery) : Nat :=
  let pieces :=
    delivery.agenda.inventory.toSend.flatMap (Piece.cut delivery.settings.chunkSize)
  pieces.length + delivery.agenda.batches.batches.length + 4

/-- Gives a queued session its turn and passes all of its requests on, whose
fates are given in their order. -/
def complete (exchange : Exchange) (recovery : Int64) (fate : Nat → Fate := fun _ => .delivered) :
    List Passage × Exchange :=
  let exchange := exchange.launch recovery
  drive recovery fate ((exchange.manager.sessions[recovery]?.map mostRequests).getD 0) 0 exchange

end Exchange

end ShardSync.Recovery
