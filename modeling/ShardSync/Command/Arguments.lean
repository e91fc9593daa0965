/-!
# Arguments

A command line names one command and its options. Options have long names and
are given once, each with one value that follows the name or an equals sign;
a value of its own must not begin with a dash. Two dashes end the options,
and nothing may stand behind them.

Of several faults the first on the line counts, except that a value is looked
at only when the next option, or the end of the line, is reached.
-/

set_option autoImplicit false

namespace ShardSync.Command

/-- Why there is no command to carry out. -/
inductive Rejection where
  | help
  | version
  | nothingAsked
  | missingCommand
  | unknownCommand
  | missingOption
  | missingValue
  | excessValue
  | unknownArgument
  | repeatedOption
  /-- A value is not a number in the range of the option. -/
  | invalidNumber
deriving Repr, DecidableEq

/-- What a command is asked to do. -/
inductive Job where
  | files (directory : String)
  /-- Show what a recovery would send from one store to another. -/
  | diff (source target : String)
  | recover (source target : String) (settingsFile? : Option String) (index : String)
      (shard : UInt32)
deriving Repr, DecidableEq

/-- What a value has to be like. -/
inductive ValueKind where
  /-- A path, which is not empty. -/
  | path
  | text
  /-- A number below `2 ^ 32`. -/
  | number
deriving Repr, DecidableEq

namespace ValueKind

/-- A decimal number, with or without a sign, that has 32 bits and is not
negative. -/
def number? (value : String) : Option UInt32 :=
  let (negative, digits) :=
    match value.toList with
    | '-' :: rest => (true, rest)
    | '+' :: rest => (false, rest)
    | rest => (false, rest)
  if digits.isEmpty || !digits.all Char.isDigit then none
  else
    let magnitude := digits.foldl (fun sum digit => sum * 10 + (digit.toNat - '0'.toNat)) 0
    if magnitude < UInt32.size ∧ (negative → magnitude = 0) then some (.ofNat magnitude) else none

def check (kind : ValueKind) (value : String) : Except Rejection Unit :=
  match kind with
  | .path => if value = "" then .error .missingValue else .ok ()
  | .text => .ok ()
  | .number => if (number? value).isSome then .ok () else .error .invalidNumber

end ValueKind

/-- An option that takes a value. -/
structure OptionRule where
  name : String
  kind : ValueKind
  isRequired : Bool := false
deriving Repr, DecidableEq

def commands : List (String × List OptionRule) := [
  ("files", [⟨"dir", .path, true⟩]),
  ("diff", [⟨"source", .path, true⟩, ⟨"target", .path, true⟩]),
  ("recover", [⟨"source", .path, true⟩, ⟨"target", .path, true⟩, ⟨"config", .path, false⟩,
    ⟨"index", .text, false⟩, ⟨"shard", .number, false⟩])]

/-- Whether a word names a command, or asks for help on one. -/
def isCommand (word : String) : Bool := word == "help" || (commands.lookup word).isSome

/-- What an argument looks like. -/
inductive Shape where
  /-- Two dashes and nothing else. -/
  | escape
  /-- Two dashes and a name, which may carry a value behind an equals sign. -/
  | long (name : String) (value? : Option String)
  /-- One dash and letters, the first of which is given. -/
  | short (letter : Char)
  | plain
deriving Repr, DecidableEq

def Shape.ofWord (word : String) : Shape :=
  match word.toList with
  | ['-', '-'] => .escape
  | '-' :: '-' :: rest =>
      let name := String.ofList (rest.takeWhile (· != '='))
      match rest.dropWhile (· != '=') with
      | [] => .long name none
      | _ :: value => .long name (some (String.ofList value))
  | '-' :: letter :: _ => .short letter
  | _ => .plain

/-- What has been read of the options of a command. -/
structure Given where
  verbose : Bool := false
  values : List (String × String) := []
  /-- The last option, while its value is awaited or has not been looked at. -/
  pending? : Option (OptionRule × Option String) := none
deriving Repr, DecidableEq

namespace Given

def give (given : Given) (rule : OptionRule) (value : String) : Except Rejection Given := do
  if (given.values.lookup rule.name).isSome then throw .repeatedOption
  rule.kind.check value
  return { given with values := given.values ++ [(rule.name, value)] }

def settle (given : Given) : Except Rejection Given :=
  match given.pending? with
  | none => .ok given
  | some (_, none) => .error .missingValue
  | some (rule, some value) => { given with pending? := none }.give rule value

def takeLong (given : Given) (rules : List OptionRule) (name : String)
    (value? : Option String) : Except Rejection Given := do
  if name = "verbose" ∨ name = "help" then
    if value?.isSome then throw .excessValue
    let given ← given.settle
    if name = "help" then throw .help
    if given.verbose then throw .repeatedOption
    return { given with verbose := true }
  else
    match rules.find? (·.name == name) with
    | none => throw .unknownArgument
    | some rule =>
        let given ← given.settle
        match value? with
        | some value => given.give rule value
        | none => return { given with pending? := some (rule, none) }

def take (given : Given) (rules : List OptionRule) (word : String) : Except Rejection Given :=
  match Shape.ofWord word, given.pending? with
  | .long name value?, _ => given.takeLong rules name value?
  | .short 'h', _ => do
      let _ ← given.settle
      throw .help
  | .plain, some (rule, none) => .ok { given with pending? := some (rule, some word) }
  | _, _ => .error .unknownArgument

def read (rules : List OptionRule) : Given → List String → Except Rejection Given
  | given, [] => given.settle
  | given, word :: words =>
      if word = "--" then if words.isEmpty then given.settle else .error .unknownArgument
      else do read rules (← given.take rules word) words

/-- The value of an option that has to be there. -/
def required (given : Given) (name : String) : Except Rejection String :=
  match given.values.lookup name with
  | some value => .ok value
  | none => .error .missingOption

def job (given : Given) (command : String) : Except Rejection Job := do
  match command with
  | "files" => return .files (← given.required "dir")
  | "diff" => return .diff (← given.required "source") (← given.required "target")
  | _ =>
      return .recover (← given.required "source") (← given.required "target")
        (given.values.lookup "config") ((given.values.lookup "index").getD "local")
        (((given.values.lookup "shard").bind ValueKind.number?).getD 0)

end Given

/-- A command line. -/
structure Invocation where
  /-- Whether every event is to be logged. -/
  verbose : Bool
  job : Job
deriving Repr, DecidableEq

namespace Invocation

def withoutCommand (verbose : Bool) : Rejection :=
  if verbose then .missingCommand else .nothingAsked

/-- What `help` is asked about has to be a command. -/
def helpOn : List String → Rejection
  | [] => .help
  | [word] => if isCommand word then .help else .unknownCommand
  | _ => .unknownCommand

/-- A word behind two dashes is never a command. -/
def behindEscape (verbose : Bool) : List String → Rejection
  | [] => withoutCommand verbose
  | word :: _ => if isCommand word then .unknownArgument else .unknownCommand

def read (verbose : Bool) : List String → Except Rejection Invocation
  | [] => .error (withoutCommand verbose)
  | word :: words =>
      match commands.lookup word with
      | some rules => do
          let given ← Given.read rules {} words
          return { verbose := verbose || given.verbose, job := ← given.job word }
      | none =>
          if word = "help" then .error (helpOn words)
          else
            match Shape.ofWord word with
            | .escape => .error (behindEscape verbose words)
            | .long "verbose" none =>
                if verbose then .error .repeatedOption else read true words
            | .long "help" none | .short 'h' => .error .help
            | .long "version" none | .short 'V' => .error .version
            | .long name _ =>
                .error <| if ["verbose", "help", "version"].contains name then .excessValue
                  else .unknownArgument
            | .short _ => .error .unknownArgument
            | .plain => .error .unknownCommand

def ofArguments (arguments : List String) : Except Rejection Invocation := read false arguments

end Invocation

end ShardSync.Command
