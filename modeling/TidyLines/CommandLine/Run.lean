import TidyLines.Catalogue
import TidyLines.CommandLine.ConfigOrigin
import TidyLines.CommandLine.Failure
import TidyLines.CommandLine.Log
import TidyLines.CommandLine.Output
import TidyLines.Text.Whitespace

/-!
# Running a command

A run turns the surroundings and the standard input into an outcome: what is printed, what is
logged, why it failed, with which code it ends and what the files are then.
-/

namespace TidyLines.CommandLine

/-- What becomes of a run. -/
structure Outcome where
  output : String := ""
  /-- What is worth a warning, in order. -/
  warnings : List Warning := []
  failure : Option Failure := none
  success : Bool := true
  tree : FileTree

namespace Outcome

/-- The outcome of a run that fails. -/
def failed (workspace : Workspace) (failure : Failure) (warnings : List Warning := []) :
    Outcome where
  warnings
  failure := some failure
  success := false
  tree := workspace.tree

/-- The code with which the program ends. -/
def exitCode (outcome : Outcome) : Nat := if outcome.success then 0 else 1

end Outcome

/-- The name under which the standard input is reported. -/
def standardInputName : Path := .ofString "<stdin>"

/-- The directory to work on when none is given. -/
def defaultTarget : Path := .ofString "."

/-- A word without white space at its ends. -/
def trimWord (text : Text) : Text :=
  Text.dropTrailing Whitespace.isUnicodeSpace (text.dropWhile Whitespace.isUnicodeSpace)

/-- The names in a list with commas between them. -/
def namesOf (list : String) : List String :=
  (((list.toList.splitOn ',').map trimWord).filter fun name => !name.isEmpty).map String.ofList

/-- The configuration for a target. -/
def configFor (workspace : Workspace) (given : Option Path) (target : Target) :
    Except Failure Config :=
  match (ConfigOrigin.ofTarget workspace given (target.path.getD defaultTarget)).path? with
  | none => .ok {}
  | some path => (readConfig workspace path).mapError (.configuration path)

/-- The names in a target that no rule has. -/
def unknownRules (target : Target) : List Warning :=
  match target.rules with
  | none => []
  | some names => (Catalogue.unknownNames (namesOf names)).map .unknownRule

/-- The rules for a target. -/
def rulesFor (target : Target) (config : Config) : Except Failure (List Rule) := do
  let rules ← (Catalogue.ofConfig config).mapError .ruleOptions
  match target.rules with
  | none => return rules
  | some names => return Catalogue.select rules (namesOf names)

/-- The plan of the analyzer for a target. -/
def planFor (target : Target) (config : Config) (rules : List Rule) : Plan where
  root := target.path
  rules
  excluded := target.excluded
  config := some config

/-- Makes the analyzer for a target, and warns on the way. -/
def analyzerFor (workspace : Workspace) (given : Option Path) (target : Target) :
    List Warning × Except Failure Analyzer :=
  let prepared : Except Failure (Config × List Rule) := do
    let config ← configFor workspace given target
    return (config, ← rulesFor target config)
  match prepared with
  | .error failure => ([], .error failure)
  | .ok (config, rules) =>
    (unknownRules target,
      ((planFor target config rules).build workspace.directoryPath).mapError .analyzer)

/-- Warnings of files that an analyzer passes over. -/
def skippedFiles (analyzer : Analyzer) (workspace : Workspace) : List Warning :=
  match analyzer.discover workspace with
  | .error _ => []
  | .ok files => (analyzer.passedOver workspace files).map fun file => .skipped file.path

/-- The text of the standard input. -/
def inputText (input : ByteArray) : Except Failure Text :=
  match Text.decode? input with
  | some text => .ok text
  | none => .error .undecodableInput

/-- Reports violations, or fails. -/
def check (workspace : Workspace) (input : ByteArray) (analyzer : Analyzer)
    (standardInput : Bool) (format : OutputFormat) : Except Outcome Outcome := do
  let finish (report : LintReport) (access : SourceAccess) (warnings : List Warning) : Outcome :=
    { output := Output.lint format access workspace report
      warnings
      success := !report.hasViolationsAt analyzer.config.threshold
      tree := workspace.tree }
  if standardInput then
    let text ← (inputText input).mapError fun failure => .failed workspace failure
    let violations := analyzer.lintText standardInputName text
    return finish { violations, filesChecked := 1 } (.text text) []
  else
    let warnings := skippedFiles analyzer workspace
    let report ← (analyzer.analyze workspace).mapError fun error =>
      .failed workspace (.analysis error) warnings
    return finish report (.below (analyzer.baseDirectory workspace)) warnings

/-- Mends a text from the standard input, or fails. -/
def formatInput (workspace : Workspace) (input : ByteArray) (analyzer : Analyzer)
    (dryRun : Bool) : Except Outcome Outcome := do
  let text ← (inputText input).mapError fun failure => .failed workspace failure
  let mended := analyzer.formatText text
  return {
    output := String.ofList mended
    success := !(dryRun && mended != text)
    tree := workspace.tree }

/-- Mends files, or fails with some of them mended. -/
def formatFiles (workspace : Workspace) (analyzer : Analyzer) (dryRun : Bool)
    (format : OutputFormat) : Except Outcome Outcome :=
  let mode : Analyzer.Mode := if dryRun then .dryRun else .write
  let warnings := skippedFiles analyzer workspace
  match analyzer.format mode workspace with
  | (tree, .error error) => .error (.failed { workspace with tree } (.formatting error) warnings)
  | (tree, .ok report) => .ok {
      output := Output.format format dryRun report
      warnings
      success := !(dryRun && !report.changed.isEmpty)
      tree }

/-- Runs a command with the analyzer for a target. -/
def withAnalyzer (workspace : Workspace) (given : Option Path) (target : Target)
    (command : Analyzer → Except Outcome Outcome) : Outcome :=
  let (warnings, made) := analyzerFor workspace given target
  match (made.mapError fun failure => .failed workspace failure).bind command with
  | .error outcome => { outcome with warnings := warnings ++ outcome.warnings }
  | .ok outcome => { outcome with warnings := warnings ++ outcome.warnings }

/-- The file in which a configuration is written. -/
def configFile : Path := .ofString "trimlint.toml"

/-- The configuration to start from. -/
def defaultConfig : String :=
  "# trimlint configuration

# Violations at or above this severity make \x60trimlint check\x60 exit non-zero
fail_on = \"error\"

[analyzer]
# Root directory to analyze (default: current directory)
# root = \"./src\"

# Glob patterns to include (empty = every file)
# include = [\"**/*.kt\", \"**/*.kts\"]

# Glob patterns to exclude from analysis
exclude = [
    \"**/target/**\",
    \"**/build/**\",
    \"**/vendor/**\",
]

# Respect .gitignore files
respect_gitignore = true

# Rule configurations
# Each rule can be enabled/disabled and have its severity overridden

[rules.no-trailing-spaces]
enabled = true
# severity = \"warning\"  # Override default severity
# \"ascii\" = space and tab, \"unicode\" = any non-line-break whitespace
whitespace = \"ascii\"
"

/-- Writes a configuration, over an older one only by force. -/
def init (workspace : Workspace) (force : Bool) : Outcome :=
  if workspace.tree.leadsSomewhere workspace.directory configFile && !force then
    .failed workspace (.configurationExists configFile)
  else
    match workspace.tree.write workspace.directory configFile defaultConfig.toUTF8 with
    | .error fault => .failed workspace (.unwritable fault)
    | .ok tree => { output := Output.created configFile, tree }

/-- The target of a command, if it has one. -/
def targetOf : Command → Option Target
  | .check target _ => some target
  | .format target _ _ => some target
  | _ => none

/-- The path below which a command looks for files, if it does and its configuration can be
used. -/
def rootOf? (workspace : Workspace) (invocation : Invocation) : Option Path := do
  let target ← targetOf invocation.command
  if target.standardInput then none
  let config ← (configFor workspace invocation.config target).toOption
  return (planFor target config []).givenRoot

/-- Runs the program. -/
def run (workspace : Workspace) (input : ByteArray) (invocation : Invocation) : Outcome :=
  match invocation.command with
  | .check target format =>
    withAnalyzer workspace invocation.config target fun analyzer =>
      check workspace input analyzer target.standardInput format
  | .format target dryRun format =>
    withAnalyzer workspace invocation.config target fun analyzer =>
      if target.standardInput then formatInput workspace input analyzer dryRun
      else formatFiles workspace analyzer dryRun format
  | .listRules => { output := Output.rules Catalogue.all, tree := workspace.tree }
  | .init force => init workspace force

/-- The lines that a run writes to its log. -/
def logLines (invocation : Invocation) (environment : List (String × String)) (outcome : Outcome) :
    List String :=
  let filter := LogFilter.ofEnvironment environment invocation.verbose
  (outcome.warnings.filter filter.shows).map Warning.line

/-- How the program is called. -/
def usageLine : String := "Usage: trimlint [OPTIONS] <check|format|list-rules|init>\n"

/-- The version of the program. -/
def versionLine : String := "trimlint 0.1.0\n"

end TidyLines.CommandLine
