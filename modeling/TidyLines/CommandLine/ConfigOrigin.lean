import TidyLines.Config.Toml
import TidyLines.Workspace

/-!
# Where the configuration comes from

A file that is named on the command line holds in any case.  Otherwise the nearest file of the
project holds, looked for in the directory of the target and in those above it, then the file of
the user, and at last the defaults.
-/

namespace TidyLines.CommandLine

/-- Where a configuration comes from. -/
inductive ConfigOrigin where
  /-- A file named on the command line, whether it is there or not. -/
  | given (path : Path)
  | project (path : Path)
  | user (path : Path)
  | defaults
  deriving DecidableEq, Repr

namespace ConfigOrigin

/-- The file that holds the configuration. -/
def path? : ConfigOrigin → Option Path
  | given path => some path
  | project path => some path
  | user path => some path
  | defaults => none

/-- The names of a configuration file in a project; the first one found in a directory holds. -/
def projectNames : List String := ["trimlint.toml", ".trimlint.toml"]

/-- The name of the configuration file in the directory of a user. -/
def userName : String := "config.toml"

/-- The files in which a project may be configured, as seen from a directory, the first choice
first. -/
def projectCandidates (start : Path) : List Path :=
  start.ancestors.flatMap fun directory => projectNames.map directory.child

/-- The origin of the configuration for work in a directory. -/
def choose (workspace : Workspace) (explicit : Option Path) (start : Path)
    (userDirectory : Option Path) : ConfigOrigin :=
  match explicit with
  | some path => given path
  | none =>
    match (projectCandidates start).find? workspace.isFile with
    | some path => project path
    | none =>
      match (userDirectory.map (·.child userName)).filter workspace.isFile with
      | some path => user path
      | none => defaults

/-- The variable that names the directory for the configuration of a user. -/
def userDirectoryVariable : String := "TRIMLINT_CONFIG_DIR"

/-- The directory for the configuration of a user, unless a variable names one. -/
def userDirectoryName : String := ".trimlint"

/-- The directory for the configuration of the user. -/
def userDirectory? (workspace : Workspace) : Option Path :=
  match workspace.variableValue userDirectoryVariable with
  | some directory => some (.ofString directory)
  | none =>
    workspace.home?.map fun home => (Path.ofString home).child userDirectoryName

/-- Where the search for a target begins: in the target, or in the directory of a target that is a
file.  Links on the way are followed if the target exists. -/
def searchStart (workspace : Workspace) (target : Path) : Path :=
  let start := if workspace.isFile target then target.parent?.getD target else target
  let absolute := workspace.absolute start
  match workspace.tree.resolve workspace.directory absolute with
  | .ok address => FileTree.pathOf address
  | .error _ => absolute

/-- The origin of the configuration for a target. -/
def ofTarget (workspace : Workspace) (explicit : Option Path) (target : Path) : ConfigOrigin :=
  choose workspace explicit (searchStart workspace target) (userDirectory? workspace)

end ConfigOrigin

/-- Reads a configuration file. -/
def readConfig (workspace : Workspace) (path : Path) : Except ConfigError Config := do
  let text ← (workspace.tree.readText workspace.directory path).mapError fun fault =>
    .unreadable path fault.message
  Config.parse text

end TidyLines.CommandLine
