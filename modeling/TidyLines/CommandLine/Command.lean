import TidyLines.Path

/-!
# The commands of the program
-/

namespace TidyLines.CommandLine

/-- How results are shown. -/
inductive OutputFormat where
  | text
  | json
  | compact
  | pretty
  deriving DecidableEq, Repr

/-- The format with a name. -/
def OutputFormat.ofName? : String → Option OutputFormat
  | "text" => some text
  | "json" => some json
  | "compact" => some compact
  | "pretty" => some pretty
  | _ => none

/-- What a command works on. -/
structure Target where
  path : Option Path := none
  /-- The names of the rules to run, with commas between them. -/
  rules : Option String := none
  excluded : List String := []
  standardInput : Bool := false
  deriving DecidableEq, Repr

/-- What the program is to do. -/
inductive Command where
  | check (target : Target) (format : OutputFormat)
  | format (target : Target) (dryRun : Bool) (format : OutputFormat)
  | listRules
  /-- Write a configuration, perhaps over an older one. -/
  | init (force : Bool)
  deriving DecidableEq, Repr

/-- A command with the settings that hold for all commands. -/
structure Invocation where
  command : Command
  verbose : Bool := false
  config : Option Path := none
  deriving DecidableEq, Repr

end TidyLines.CommandLine
