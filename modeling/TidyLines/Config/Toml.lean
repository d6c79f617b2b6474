import TidyLines.Config
import TidyLines.Toml.Parser

/-!
# Configurations in TOML

Keys that mean nothing are passed over, except that every further key of a rule is one of its
options.  A value of the wrong type makes the text no configuration.
-/

namespace TidyLines

/-- Reads a severity: its name, or a table whose key is the name and whose value is empty.  An
inline table must have that one key only. -/
def Severity.ofToml? : Toml.Value → Option Severity
  | .string name => ofExactName? name
  | .table .inline [(name, value)] => if isEmpty value then ofExactName? name else none
  | .table .block ((name, value) :: _) => if isEmpty value then ofExactName? name else none
  | _ => none
where
  /-- Whether a value is an empty array or table. -/
  isEmpty : Toml.Value → Bool
    | .array [] => true
    | .table _ [] => true
    | _ => false

namespace Toml

/-- Reads a string. -/
def string? : Value → Option String
  | .string text => some text
  | _ => none

/-- Reads a truth value. -/
def boolean? : Value → Option Bool
  | .boolean value => some value
  | _ => none

/-- Reads an array of strings. -/
def strings? : Value → Option (List String)
  | .array items => items.mapM string?
  | _ => none

/-- Reads the value under a key, or takes the default if there is none. -/
def readOr {Result : Type} (default : Result) (read : Value → Option Result) :
    Option Value → Option Result
  | none => some default
  | some value => read value

end Toml

open Toml

/-- Reads a selection of files from a table, or from an array of root, exclusions, inclusions and
the use of ignore files. -/
def Selection.ofToml? (value : Value) : Option Selection :=
  match value with
  | .table _ entries =>
    build (entries.lookup "root") (entries.lookup "exclude") (entries.lookup "include")
      (entries.lookup "respect_gitignore")
  | .array items => build items[0]? items[1]? items[2]? items[3]?
  | _ => none
where
  /-- Reads the parts of a selection. -/
  build (root exclude inclusion respect : Option Value) : Option Selection := do
    return {
      root := .ofString (← readOr "." string? root)
      excluded := ← readOr [] strings? exclude
      included := ← readOr [] strings? inclusion
      respectIgnoreFiles := ← readOr true boolean? respect }

/-- Reads the configuration of a rule. -/
def RuleConfig.ofToml? : Value → Option RuleConfig
  | .table _ entries => do
    return {
      enabled := ← readOr none (fun value => (boolean? value).map some) (entries.lookup "enabled")
      severity :=
        ← readOr none (fun value => (Severity.ofToml? value).map some) (entries.lookup "severity")
      options := entries.filter fun entry => entry.1 != "enabled" && entry.1 != "severity" }
  | _ => none

namespace Config

/-- Reads the configurations of rules. -/
def rulesOfToml? : Value → Option (List (String × RuleConfig))
  | .table _ entries => entries.mapM fun entry => (RuleConfig.ofToml? entry.2).map (entry.1, ·)
  | _ => none

/-- Reads a configuration from the entries of a document. -/
def ofToml? (entries : List (String × Value)) : Option Config := do
  return {
    failOn :=
      ← readOr none (fun value => (Severity.ofToml? value).map some) (entries.lookup "fail_on")
    selection := ← readOr {} Selection.ofToml? (entries.lookup "analyzer")
    rules := ← readOr [] rulesOfToml? (entries.lookup "rules") }

/-- Reads a configuration from a text. -/
def parse (text : Text) : Except ConfigError Config :=
  match (Toml.parse? text).bind ofToml? with
  | some config => .ok config
  | none => .error .malformed

end Config
end TidyLines
