import ShardSync.Command.Arguments

/-!
# Usage

What the program says about itself, and about arguments that it cannot use.
-/

set_option autoImplicit false

namespace ShardSync.Command

def programName : String := "shardsync"

def programVersion : String := "0.1.0"

def OptionRule.usage (rule : OptionRule) : String :=
  let text := s!"--{rule.name} <{rule.name}>"
  if rule.isRequired then text else s!"[{text}]"

/-- The lines of the usage: one for each command. -/
def usage : List String :=
  s!"usage: {programName} [--verbose] <command>" ::
    commands.map fun (name, rules) =>
      "  " ++ " ".intercalate (name :: rules.map OptionRule.usage)

namespace Rejection

/-- Whether the arguments ask for a text and nothing else. -/
def isRequest (rejection : Rejection) : Bool := rejection == .help || rejection == .version

def fault? : Rejection → Option String
  | .help | .version | .nothingAsked => none
  | .missingCommand => some "a command is missing"
  | .unknownCommand => some "there is no such command"
  | .missingOption => some "a required option is missing"
  | .missingValue => some "an option has no value"
  | .excessValue => some "a flag takes no value"
  | .unknownArgument => some "there is no such argument"
  | .repeatedOption => some "an option is given twice"
  | .invalidNumber => some "a value is no number of the range 0 to 4294967295"

def lines (rejection : Rejection) : List String :=
  if rejection = .version then [s!"{programName} {programVersion}"]
  else (rejection.fault?.map fun fault => s!"error: {fault}").toList ++ usage

end Rejection

end ShardSync.Command
