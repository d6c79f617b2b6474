import TidyLines.Config
import TidyLines.TrailingSpaces

/-!
# The rules there are

Rules are listed with their default settings, built from a configuration, and chosen by name or
code.
-/

namespace TidyLines.Catalogue

/-- All rules with their default settings. -/
def all : List Rule := [TrailingSpaces.rule {}]

/-- The rule that answers to a name. -/
def find? (name : String) : Option Rule := all.find? (·.answersTo name)

/-- The key under which the class of white space is configured. -/
def whitespaceKey : String := "whitespace"

/-- The class of white space that a configuration asks for. -/
def whitespaceOf (config : Config) : Except ConfigError Whitespace :=
  match config.rule? TrailingSpaces.name with
  | none => .ok .ascii
  | some ruleConfig => do
    let name ← ruleConfig.string TrailingSpaces.name whitespaceKey Whitespace.ascii.name
    (Whitespace.ofName name).mapError fun unknown =>
      .invalidOption TrailingSpaces.name whitespaceKey unknown.message

/-- All rules with the options of a configuration.  Which rules are on, and with which severity
they report, is up to the analysis. -/
def ofConfig (config : Config) : Except ConfigError (List Rule) := do
  let whitespace ← whitespaceOf config
  return [TrailingSpaces.rule { whitespace }]

/-- The rules that answer to one of the names, in their order. -/
def select (rules : List Rule) (names : List String) : List Rule :=
  rules.filter fun rule => names.any rule.answersTo

/-- The names to which no rule answers. -/
def unknownNames (names : List String) : List String :=
  names.filter fun name => (find? name).isNone

end TidyLines.Catalogue
