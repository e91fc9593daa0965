import ShardSync.Json.Basic
import ShardSync.Recovery.Error
import ShardSync.Recovery.Settings

/-!
# Failures of a command

A command that cannot do its work reports a code and a text. What it prints is
an envelope around its data, or around the failure.
-/

set_option autoImplicit false

namespace ShardSync.Command

inductive ErrorKind where
  | config
  | io
  | store
  | recovery
deriving Repr, DecidableEq

def ErrorKind.code : ErrorKind → String
  | .config => "RECOVERY_CLI_CONFIG_ERROR"
  | .io => "RECOVERY_CLI_IO_ERROR"
  | .store => "RECOVERY_CLI_STORE_ERROR"
  | .recovery => "RECOVERY_CLI_RECOVERY_FAILED"

structure Error where
  kind : ErrorKind
  detail : String
deriving Repr, DecidableEq

namespace Error

def message (error : Error) : String := s!"{error.kind.code}: {error.detail}"

def ofStore (cause : StoreError) : Error := ⟨.store, cause.message⟩

def ofTranslog (cause : TranslogError) : Error := ⟨.store, cause.message⟩

def ofSegment (cause : SegmentError) : Error := ⟨.store, cause.message⟩

def ofEngine (cause : EngineError) : Error := ⟨.store, cause.message⟩

def ofRecovery (cause : Recovery.Error) : Error := ⟨.recovery, cause.message⟩

/-- The failure to use the settings file at a path. -/
def ofSettings (path : String) (cause : Recovery.SettingsError) : Error :=
  ⟨.config, cause.message path⟩

end Error

namespace Envelope

def ok (data : Json) : Json :=
  .object [("status", .text "ok"), ("data", data)]

/-- What a command prints after a failure, with data if there are any. -/
def error (code detail : String) (data? : Option Json) : Json :=
  .object <| [("status", .text "error"), ("code", .text code), ("message", .text detail)] ++
    (data?.map fun data => ("data", data)).toList

end Envelope

end ShardSync.Command
