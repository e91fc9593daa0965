import ShardSync.Recovery.Error
import ShardSync.Segment.Format
import ShardSync.Store.Basic

/-!
# Segments of a store

The files of a store whose names end in `.seg` hold its segments. An engine
works on them in the order of their generations.
-/

set_option autoImplicit false

namespace ShardSync.Recovery

/-- Whether a file with this name holds a segment: whether a dot and the
extension stand at its end. -/
def isSegmentName (name : String) : Bool :=
  ("." ++ Segment.extension).toList.isSuffixOf name.toList

/-- Oldest generation first; equal generations stay in order. -/
def byGeneration (segments : List Segment) : List Segment :=
  segments.mergeSort fun first second => first.generation ≤ second.generation

def readSegment (store : Store) (name : String) : Except Error Segment := do
  let content ← (store.read name).mapError Error.ofStore
  (Segment.decode content).mapError Error.ofSegment

/-- The segments of the live files of a store. -/
def loadSegments (store : Store) : Except Error (List Segment) := do
  let files ← store.liveFiles.mapError Error.ofStore
  let names := (files.map (·.name)).filter isSegmentName
  return byGeneration (← names.mapM (readSegment store))

end ShardSync.Recovery
