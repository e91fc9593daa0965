import ShardSync.Log.Event
import ShardSync.Text.Hex

/-!
# Log lines

A line is one JSON object: the event, the severity, and then the fields in
the order of their keys. Fields with the same key keep their order. Every
control character is escaped, so a line holds no line break but its last.
-/

set_option autoImplicit false

namespace ShardSync.Log

/-- Whether a character is a control character: below the space, or in the
block from delete to the last control of Latin-1. -/
def isControl (symbol : Char) : Bool :=
  symbol.toNat < 0x20 || (0x7F ≤ symbol.toNat && symbol.toNat ≤ 0x9F)

/-- One character as it stands between the quotes of a log line. -/
def escapeSymbol (symbol : Char) : List Char :=
  if symbol = '"' then ['\\', '"']
  else if symbol = '\\' then ['\\', '\\']
  else if symbol = '\n' then ['\\', 'n']
  else if symbol = '\r' then ['\\', 'r']
  else if symbol = '\t' then ['\\', 't']
  else if isControl symbol then '\\' :: 'u' :: Text.Hex.digits 4 symbol.toNat
  else [symbol]

def quote (text : String) : List Char :=
  '"' :: text.toList.flatMap escapeSymbol ++ ['"']

/-- One thing to log. -/
structure Line where
  severity : Severity
  event : String
  fields : List (String × String) := []
deriving Repr, DecidableEq

namespace Line

/-- The line of an event, at the event's own severity. -/
def ofEvent (event : Event) (fields : List (String × String)) : Line :=
  { severity := event.severity, event := event.name, fields }

/-- The fields in increasing order of their keys; equal keys stay in order. -/
def sortedFields (line : Line) : List (String × String) :=
  line.fields.mergeSort fun first second => compare first.1 second.1 != .gt

/-- The names and texts that a line consists of, in their order. -/
def members (line : Line) : List (String × String) :=
  ("event", line.event) :: ("severity", line.severity.name) :: line.sortedFields

def renderMember (member : String × String) : List Char :=
  quote member.1 ++ ':' :: quote member.2

/-- The line as it is written, with the line break at its end. -/
def render (line : Line) : String :=
  String.ofList <|
    '\x7b' :: ((line.members.map renderMember).intersperse [',']).flatten ++ ['\x7d', '\n']

end Line

/-- The lines that are written when `lowest` is the least severity asked for. -/
def written (lowest : Severity) (lines : List Line) : List String :=
  (lines.filter fun line => line.severity.passes lowest).map Line.render

end ShardSync.Log
