import TidyLines.Config
import TidyLines.Discovery
import TidyLines.Report
import TidyLines.Rule

/-!
# Linting and formatting a project

An analyzer applies rules to every file that it finds.  A rule that the configuration turns off
does not run, and a severity in the configuration replaces that of the violations of a rule.
-/

namespace TidyLines

/-- Why a run fails. -/
inductive AnalysisError where
  /-- A file that was found cannot be read or written. -/
  | io (fault : Fault)
  | walk (reason : String)
  | undecodable (path : Path)
  | pattern (error : Glob.Error)
  deriving DecidableEq, Repr

namespace AnalysisError

/-- Says why a run fails. -/
def message : AnalysisError → String
  | io fault => "IO error: " ++ fault.message
  | walk reason => "Failed to walk directory: " ++ reason
  | undecodable path => path.text ++ " is not valid UTF-8 text"
  | pattern error => "Invalid glob pattern: " ++ error.message

/-- The messages from a failure down to its cause. -/
def causes (error : AnalysisError) : List String :=
  match error with
  | io fault => [error.message, fault.message]
  | walk reason => [error.message, reason]
  | undecodable _ => [error.message]
  | pattern cause => [error.message, cause.message]

end AnalysisError

/-- What an analyzer is made from. -/
structure Plan where
  /-- The root, if it is not left to the configuration. -/
  root : Option Path := none
  rules : List Rule := []
  /-- Patterns of files to leave out, besides those of the configuration. -/
  excluded : List String := []
  /-- Patterns of files to take, besides those of the configuration. -/
  included : List String := []
  config : Option Config := none
  failOnUndecodable : Bool := false

/-- A linter and formatter of a project. -/
structure Analyzer where
  search : Search
  /-- The rules, in the order in which they run. -/
  rules : List Rule
  config : Config
  /-- Whether a file that is no text fails the run; otherwise it is passed over. -/
  failOnUndecodable : Bool

/-- The patterns of files to leave out when none are given. -/
def Plan.defaultExcluded : List String := ["**/target/**", "**/vendor/**"]

/-- The patterns of files to leave out. -/
def Plan.allExcluded (plan : Plan) : List String :=
  let given := plan.excluded ++ (plan.config.map (·.selection.excluded)).getD []
  if given.isEmpty then defaultExcluded else given

/-- The patterns of files to take. -/
def Plan.allIncluded (plan : Plan) : List String :=
  plan.included ++ (plan.config.map (·.selection.included)).getD []

/-- The root, perhaps relative. -/
def Plan.givenRoot (plan : Plan) : Path :=
  (plan.root.or (plan.config.map (·.selection.root))).getD (.ofString ".")

/-- Makes an analyzer whose root is read from the given directory. -/
def Plan.build (plan : Plan) (directory : Path) : Except AnalysisError Analyzer := do
  let read (patterns : List String) : Except AnalysisError (List Filter) :=
    (patterns.mapM Filter.parse).mapError AnalysisError.pattern
  let excluded ← read plan.allExcluded
  let included ← read plan.allIncluded
  let config := plan.config.getD {}
  return {
    search := {
      root := directory.join plan.givenRoot
      excluded
      included
      respectIgnoreFiles := config.selection.respectIgnoreFiles }
    rules := plan.rules
    config
    failOnUndecodable := plan.failOnUndecodable }

namespace Analyzer

/-- The path of the root. -/
def root (analyzer : Analyzer) : Path := analyzer.search.root

/-- The directory to which reported paths are relative: the root, or the directory of a root that is
a file. -/
def baseDirectory (analyzer : Analyzer) (workspace : Workspace) : Path :=
  if workspace.isFile analyzer.root then analyzer.root.parent?.getD analyzer.root
  else analyzer.root

/-- The rules that are on. -/
def enabledRules (analyzer : Analyzer) : List Rule :=
  analyzer.rules.filter fun rule => analyzer.config.isEnabled rule.name

/-- Gives the violations of a rule the severity that is configured for it. -/
def withSeverity (analyzer : Analyzer) (rule : Rule) (violations : List Violation) :
    List Violation :=
  match analyzer.config.severity? rule.name with
  | none => violations
  | some severity => violations.map fun violation => { violation with severity }

/-- The violations in one source. -/
def lint (analyzer : Analyzer) (source : Source) : List Violation :=
  analyzer.enabledRules.flatMap fun rule => analyzer.withSeverity rule (rule.check source)

/-- Mends a text by one rule, if the rule reports anything, and adds to the number of violations
mended. -/
def fixStep (path : Path) (state : Text × Nat) (rule : Rule) : Text × Nat :=
  let source := Source.named path state.1
  let found := (rule.check source).length
  if found = 0 then state
  else match rule.fix source with
    | some text => (text, state.2 + found)
    | none => state

/-- Mends a text by all rules that can, in their order, and counts the violations mended. -/
def fix (analyzer : Analyzer) (path : Path) (text : Text) : Text × Nat :=
  (analyzer.enabledRules.filter Rule.fixable).foldl (fixStep path) (text, 0)

/-- The violations in a text under a name. -/
def lintText (analyzer : Analyzer) (name : Path) (text : Text) : List Violation :=
  analyzer.lint (.named name text)

/-- A text, mended. -/
def formatText (analyzer : Analyzer) (text : Text) : Text := (analyzer.fix .empty text).1

/-- Whether one violation comes before another one by file, line and column, or both have the same
place. -/
def inOrder (first second : Violation) : Bool :=
  let order := compareLex (fun a b : Violation => a.location.file.order b.location.file)
    (compareLex (compareOn (·.location.line)) (compareOn (·.location.column)))
  order first second != .gt

/-- Finds the files of a project. -/
def discover (analyzer : Analyzer) (workspace : Workspace) :
    Except AnalysisError (List FoundFile) :=
  (analyzer.search.find workspace).mapError AnalysisError.walk

/-- The text that bytes under a path stand for, or nothing if the file is to be passed over. -/
def decode (analyzer : Analyzer) (path : Path) (bytes : ByteArray) :
    Except AnalysisError (Option Text) :=
  match Text.decode? bytes with
  | some text => .ok (some text)
  | none => if analyzer.failOnUndecodable then .error (.undecodable path) else .ok none

/-- The text of the file to which a path leads, or nothing if the file is to be passed over. -/
def readFile (analyzer : Analyzer) (directory : Address) (tree : FileTree) (path : Path) :
    Except AnalysisError (Option Text) := do
  analyzer.decode path (← (tree.read directory path).mapError .io)

/-- The files that a run passes over because they are no texts, up to one that fails it. -/
def passedOver (analyzer : Analyzer) (workspace : Workspace) : List FoundFile → List FoundFile
  | [] => []
  | file :: others =>
    match analyzer.readFile workspace.directory workspace.tree file.path with
    | .error _ => []
    | .ok none => file :: passedOver analyzer workspace others
    | .ok (some _) => passedOver analyzer workspace others

/-- The source that a file holds. -/
def sourceOf (base : Path) (file : FoundFile) (text : Text) : Source :=
  .ofFile file.path text base

/-- The report on files, in their order.  Each is read under its path. -/
def lintFiles (analyzer : Analyzer) (workspace : Workspace) (base : Path) :
    List FoundFile → Except AnalysisError LintReport
  | [] => .ok {}
  | file :: others => do
    let read ← analyzer.readFile workspace.directory workspace.tree file.path
    let first : LintReport := match read with
      | none => {}
      | some text => { violations := analyzer.lint (sourceOf base file text), filesChecked := 1 }
    return first.extend (← lintFiles analyzer workspace base others)

/-- Looks for violations in all files, and orders them. -/
def analyze (analyzer : Analyzer) (workspace : Workspace) : Except AnalysisError LintReport := do
  let files ← analyzer.discover workspace
  let report ← analyzer.lintFiles workspace (analyzer.baseDirectory workspace) files
  return { report with violations := report.violations.mergeSort inOrder }

/-- What becomes of files that need mending. -/
inductive Mode where
  | write
  | dryRun
  deriving DecidableEq, Repr

/-- The tree after a file is mended, and the change, if there is one. -/
def formatFile (analyzer : Analyzer) (mode : Mode) (directory : Address) (base : Path)
    (file : FoundFile) (text : Text) (tree : FileTree) :
    Except AnalysisError (FileTree × Option FileChange) := do
  let (mended, fixed) := analyzer.fix file.path text
  if mended = text then return (tree, none)
  else
    let change : FileChange := { file := (sourceOf base file text).relativePath, fixed }
    match mode with
    | .write =>
      let written ← (tree.write directory file.path (Text.encode mended)).mapError .io
      return (written, some change)
    | .dryRun => return (tree, some change)

/-- A report with one more file. -/
def addFile (report : FormatReport) (change : Option FileChange) : FormatReport where
  changed := report.changed ++ change.toList
  filesChecked := report.filesChecked + 1

/-- The tree and the report when the turn of a file is over. -/
def formatNext (analyzer : Analyzer) (mode : Mode) (directory : Address) (base : Path)
    (file : FoundFile) (report : FormatReport) (tree : FileTree) :
    Except AnalysisError (FileTree × FormatReport) := do
  match ← analyzer.readFile directory tree file.path with
  | none => return (tree, report)
  | some text =>
    let (tree, change) ← analyzer.formatFile mode directory base file text tree
    return (tree, addFile report change)

/-- Mends files in their order.  Each is read when its turn comes, from the tree that the files
before it left behind.  When one of them fails the run, those before it stay mended. -/
def formatFiles (analyzer : Analyzer) (mode : Mode) (directory : Address) (base : Path)
    (report : FormatReport) :
    List FoundFile → FileTree → FileTree × Except AnalysisError FormatReport
  | [], tree => (tree, .ok report)
  | file :: others, tree =>
    match analyzer.formatNext mode directory base file report tree with
    | .error error => (tree, .error error)
    | .ok (tree, report) => formatFiles analyzer mode directory base report others tree

/-- Mends all files, and says what the tree is then. -/
def format (analyzer : Analyzer) (mode : Mode) (workspace : Workspace) :
    FileTree × Except AnalysisError FormatReport :=
  match analyzer.discover workspace with
  | .error error => (workspace.tree, .error error)
  | .ok files =>
    analyzer.formatFiles mode workspace.directory (analyzer.baseDirectory workspace) {} files
      workspace.tree

end Analyzer
end TidyLines
