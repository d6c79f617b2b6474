import TidyLines.Path
import TidyLines.Severity
import TidyLines.Toml

/-!
# Configuration

A configuration says which files a run looks at, which rules are on and with which options, and at
which severity a run fails.
-/

namespace TidyLines

/-- What is wrong with a configuration. -/
inductive ConfigError where
  | unreadable (path : Path) (reason : String)
  | malformed
  | invalidOption (rule key reason : String)
  deriving DecidableEq, Repr

/-- Says what is wrong with a configuration. -/
def ConfigError.message : ConfigError → String
  | unreadable path reason => "Failed to read config file " ++ path.text ++ ": " ++ reason
  | malformed => "Failed to parse config:"
  | invalidOption rule key reason =>
    "Invalid value for rules." ++ rule ++ "." ++ key ++ ": " ++ reason

/-- Which files a run looks at. -/
structure Selection where
  root : Path := .ofString "."
  excluded : List String := []
  /-- The patterns of files to take; all files, if there are none. -/
  included : List String := []
  /-- Whether the ignore files of a version control system count. -/
  respectIgnoreFiles : Bool := true
  deriving DecidableEq, Repr

/-- The configuration of one rule. -/
structure RuleConfig where
  enabled : Option Bool := none
  severity : Option Severity := none
  options : List (String × Toml.Value) := []
  deriving Repr

/-- A string among the options of a rule, or the default if it is not set. -/
def RuleConfig.string (config : RuleConfig) (rule key default : String) :
    Except ConfigError String :=
  match config.options.lookup key with
  | none => .ok default
  | some (.string text) => .ok text
  | some other =>
    .error (.invalidOption rule key ("expected a string, found " ++ other.typeName))

/-- A configuration. -/
structure Config where
  failOn : Option Severity := none
  selection : Selection := {}
  rules : List (String × RuleConfig) := []
  deriving Repr

namespace Config

/-- The configuration of a rule. -/
def rule? (config : Config) (name : String) : Option RuleConfig := config.rules.lookup name

/-- Whether a rule is on, as rules are unless a configuration says otherwise. -/
def isEnabled (config : Config) (name : String) : Bool :=
  ((config.rule? name).bind RuleConfig.enabled).getD true

/-- The severity that a configuration gives to the violations of a rule. -/
def severity? (config : Config) (name : String) : Option Severity :=
  (config.rule? name).bind RuleConfig.severity

/-- The least severity that fails a run. -/
def threshold (config : Config) : Severity := config.failOn.getD .error

end Config
end TidyLines
