import ShardSync.Engine.Error
import ShardSync.Engine.Tracker
import ShardSync.Segment.Builder
import ShardSync.Segment.Resolver
import ShardSync.Text.Utf8
import ShardSync.Translog.Operation

/-!
# The engine

An engine answers searches from its sealed segments and collects the effects
of operations in a builder. An operation on a document first deletes the live
copy that is there: in the builder, or by putting a segment without it, under
a new generation, in the place of the segment that holds it. Refreshing seals
the builder into a new segment.

An operation that fails may still have filled the cache of the search.
-/

set_option autoImplicit false

namespace ShardSync

structure Engine where
  /-- The sealed segments, oldest first. -/
  segments : List Segment := []
  /-- What has been collected since the last refresh. -/
  pending : SegmentBuilder := {}
  resolver : Resolver := {}
  tracker : Tracker := {}
  nextGeneration : Generation := 1
  /-- The sources of the documents that operations have stored. -/
  sources : Std.ExtTreeMap String Bytes := ∅
  /-- Whether the engine has been given its segments. -/
  isPrepared : Bool := false

namespace Engine

/-- The generation after a given one, if there is one. -/
def successor? (generation : Generation) : Option Generation :=
  if generation.toNat + 1 < UInt64.size then some (generation + 1) else none

/-- Checks the segments that an engine is to work on. The result is the
tracker of their sequence numbers, and the least generation that is above all
of theirs and not below `next`. -/
def survey : List Segment → Tracker → Generation → Except EngineError (Tracker × Generation)
  | [], tracker, next => .ok (tracker, next)
  | segment :: segments, tracker, next =>
      match Lookup.ofSegment segment with
      | .error error => .error (.unresolved error)
      | .ok _ =>
          match successor? segment.generation with
          | none => .error (.generationsExhausted segment.generation)
          | some after =>
              let seqNos := segment.seqNos?.elim [] (·.values)
              survey segments
                (seqNos.foldl (fun tracker seqNo => tracker.mark seqNo.toInt) tracker)
                (if next ≤ after then after else next)

/-- Gives an engine the segments it is to work on. All else that it held is
forgotten, except for the generations that it has given away. -/
def prepare (engine : Engine) (segments : List Segment) : Except EngineError Engine := do
  let (tracker, nextGeneration) ← survey segments {} engine.nextGeneration
  return { segments, tracker, nextGeneration, isPrepared := true }

def ofSegments (segments : List Segment) : Except EngineError Engine :=
  prepare {} segments

def allocate (engine : Engine) : Except EngineError (Generation × Engine) :=
  match successor? engine.nextGeneration with
  | some next => .ok (engine.nextGeneration, { engine with nextGeneration := next })
  | none => .error (.generationsExhausted engine.nextGeneration)

/-- Puts a changed segment in the place of the first one with the given
generation. -/
def replaceFirst (generation : Generation) (change : Segment → Segment) :
    List Segment → List Segment
  | [] => []
  | segment :: segments =>
      if segment.generation = generation then change segment :: segments
      else segment :: replaceFirst generation change segments

/-- Deletes the live copy of a document, wherever it is. -/
def removeLive (engine : Engine) (id : Bytes) : Except EngineError Unit × Engine :=
  match engine.pending.findLive? id with
  | some position => (.ok (), { engine with pending := engine.pending.softDelete position })
  | none =>
      let (outcome, resolver) := engine.resolver.version engine.segments id false
      let engine := { engine with resolver }
      match outcome with
      | .error error => (.error (.unresolved error), engine)
      | .ok none => (.ok (), engine)
      | .ok (some hit) =>
          match engine.allocate with
          | .error error => (.error error, engine)
          | .ok (generation, engine) =>
              (.ok (), { engine with
                segments := replaceFirst hit.generation
                  (·.withSoftDeleted hit.position generation) engine.segments })

def collect (engine : Engine) (document : Document) : Engine :=
  { engine with pending := engine.pending.add document }

def perform (engine : Engine) (operation : Operation) : Except EngineError Unit × Engine :=
  match operation.action with
  | .index id version source =>
      let key := Text.Utf8.encode id
      match engine.removeLive key with
      | (.error error, engine) => (.error error, engine)
      | (.ok (), engine) =>
          let engine := engine.collect <|
            SegmentBuilder.liveDocument key version operation.seqNo operation.primaryTerm
          (.ok (), { engine with sources := engine.sources.insert id source })
  | .delete id version =>
      let key := Text.Utf8.encode id
      match engine.removeLive key with
      | (.error error, engine) => (.error error, engine)
      | (.ok (), engine) =>
          let engine := engine.collect <|
            SegmentBuilder.deleteTombstone key version operation.seqNo operation.primaryTerm
          (.ok (), { engine with sources := engine.sources.erase id })
  | .noOp _ =>
      (.ok (), engine.collect <|
        SegmentBuilder.noOpTombstone operation.seqNo operation.primaryTerm)

/-- Applies an operation. Its sequence number counts as processed from then on. -/
def apply (engine : Engine) (operation : Operation) : Except EngineError Unit × Engine :=
  if !engine.isPrepared then (.error .notPrepared, engine)
  else if operation.seqNo < 0 then
    (.error (.invalidOperation operation.seqNo "sequence number must not be negative"), engine)
  else
    match engine.perform operation with
    | (.error error, engine) => (.error error, engine)
    | (.ok (), engine) =>
        (.ok (), { engine with tracker := engine.tracker.mark operation.seqNo.toInt })

/-- Makes what has been collected searchable. -/
def refresh (engine : Engine) : Except EngineError Engine :=
  if engine.pending.entries.isEmpty then .ok engine
  else do
    let (generation, engine) ← engine.allocate
    return { engine with
      segments := engine.segments ++ [engine.pending.build generation]
      pending := {} }

/-- The document with the given id, as a search finds it. -/
def get (engine : Engine) (id : String) :
    Except EngineError (Option VersionHit) × Engine :=
  let (outcome, resolver) :=
    engine.resolver.version engine.segments (Text.Utf8.encode id) true
  (outcome.mapError .unresolved, { engine with resolver })

/-- The source of a document that an operation has stored. -/
def source? (engine : Engine) (id : String) : Option Bytes := engine.sources[id]?

def numDocs (engine : Engine) : Nat :=
  engine.segments.foldr (fun segment rest => segment.numDocs + rest) 0

def localCheckpoint (engine : Engine) : Int := engine.tracker.checkpoint

def maxSeqNo (engine : Engine) : Int := engine.tracker.maxSeqNo

def hasProcessed (engine : Engine) (seqNo : Int) : Bool := engine.tracker.hasProcessed seqNo

end Engine

end ShardSync
