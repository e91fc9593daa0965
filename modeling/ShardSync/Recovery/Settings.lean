import ShardSync.Json.Parser
import ShardSync.Text.Utf8

/-!
# Settings

How many recoveries run at once, how large the messages are, and how long a
node waits. A settings file is a JSON object with some of the settings, or a
list of their values in order from the first one on; what is left out has its
default.
-/

set_option autoImplicit false

namespace ShardSync.Recovery

structure Settings where
  /-- The number of recoveries that may run at the same time. -/
  maxConcurrentRecoveries : Nat := 2
  /-- The largest number of bytes in a chunk. -/
  chunkSize : Nat := 512 * 1024
  /-- The number of chunks that may be without an acknowledgement. -/
  maxConcurrentChunks : Nat := 2
  /-- The largest number of operations in a batch. -/
  batchOperations : Nat := 1000
  /-- The largest number of bytes in a batch of more than one operation. -/
  batchBytes : Nat := 512 * 1024
  /-- Milliseconds to wait for the reply to a request. -/
  timeout : Nat := 15 * 60 * 1000
  /-- Milliseconds to wait for the reply to the last request. -/
  longTimeout : Nat := 30 * 60 * 1000
  /-- Milliseconds to wait for the reply to a cancellation. -/
  cancelGrace : Nat := 30 * 1000
deriving Repr, DecidableEq

inductive SettingsError where
  | unreadable
  | malformed
  | invalid (field reason : String)
deriving Repr, DecidableEq

/-- The report of the failure to use the settings file at a path. -/
def SettingsError.message (path : String) : SettingsError → String
  | .unreadable => s!"Failed to read settings file {path}"
  | .malformed => s!"Failed to parse settings file {path}"
  | .invalid field reason => s!"Invalid setting [{field}]: {reason}"

namespace Settings

/-- The settings by name, in order. -/
def fields (settings : Settings) : List (String × Nat) := [
  ("max_concurrent_recoveries", settings.maxConcurrentRecoveries),
  ("chunk_size_bytes", settings.chunkSize),
  ("max_concurrent_file_chunks", settings.maxConcurrentChunks),
  ("ops_batch_size", settings.batchOperations),
  ("ops_batch_bytes", settings.batchBytes),
  ("internal_action_timeout_ms", settings.timeout),
  ("internal_action_long_timeout_ms", settings.longTimeout),
  ("cancel_grace_ms", settings.cancelGrace)]

/-- The names of the settings, in order. -/
def names : List String := (fields {}).map (·.1)

/-- The settings with the given values, or else their defaults. -/
def ofFields (given : List (String × Nat)) : Settings :=
  let value (name : String) (default : Nat) := (given.lookup name).getD default
  let defaults : Settings := {}
  { maxConcurrentRecoveries :=
      value "max_concurrent_recoveries" defaults.maxConcurrentRecoveries
    chunkSize := value "chunk_size_bytes" defaults.chunkSize
    maxConcurrentChunks := value "max_concurrent_file_chunks" defaults.maxConcurrentChunks
    batchOperations := value "ops_batch_size" defaults.batchOperations
    batchBytes := value "ops_batch_bytes" defaults.batchBytes
    timeout := value "internal_action_timeout_ms" defaults.timeout
    longTimeout := value "internal_action_long_timeout_ms" defaults.longTimeout
    cancelGrace := value "cancel_grace_ms" defaults.cancelGrace }

def natural? : Json → Option Nat
  | .int value => if 0 ≤ value ∧ value < UInt64.size then some value.toNat else none
  | _ => none

/-- A setting that exists, with its value. -/
def field? (member : String × Json) : Option (String × Nat) :=
  if names.contains member.1 then (natural? member.2).map fun value => (member.1, value)
  else none

/-- The settings that a value describes. No setting may be given twice. -/
def ofJson? : Json → Option Settings
  | .object members => do
      let given ← members.mapM field?
      if (given.map (·.1)).Nodup then return ofFields given else none
  | .list values => do
      let given ← values.mapM natural?
      if given.length ≤ names.length then return ofFields (names.zip given) else none
  | _ => none

/-- Reads a settings file, if it exists. -/
def ofFile (file? : Option Bytes) : Except SettingsError Settings :=
  match file?.map Text.Utf8.decode with
  | none | some (.error _) => .error .unreadable
  | some (.ok source) =>
      match (Json.parse? source).bind ofJson? with
      | none => .error .malformed
      | some settings => .ok settings

/-- The largest size of a chunk: the length of a byte string has 31 bits. -/
def maxChunkSize : Nat := 0x7FFFFFFF

def validate (settings : Settings) : Except SettingsError Unit :=
  match settings.fields.find? (·.2 == 0) with
  | some (field, _) => .error (.invalid field "must be greater than zero")
  | none =>
      if maxChunkSize < settings.chunkSize then
        .error (.invalid "chunk_size_bytes" s!"must not exceed {maxChunkSize}")
      else if settings.longTimeout < settings.timeout then
        .error (.invalid "internal_action_long_timeout_ms"
          "must not be shorter than internal_action_timeout_ms")
      else .ok ()

def load (file? : Option Bytes) : Except SettingsError Settings := do
  let settings ← ofFile file?
  settings.validate
  return settings

def json (settings : Settings) : Json :=
  .object (settings.fields.map fun (name, value) => (name, .ofNat value))

end Settings

end ShardSync.Recovery
