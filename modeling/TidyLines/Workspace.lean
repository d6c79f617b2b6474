import TidyLines.FileTree

/-!
# Where a run takes place
-/

namespace TidyLines

/-- The surroundings of a run. -/
structure Workspace where
  tree : FileTree
  directory : Address
  environment : List (String × String) := []
  /-- The home directory of the account. -/
  accountHome : Option String := none

namespace Workspace

/-- The path of the current directory. -/
def directoryPath (workspace : Workspace) : Path := FileTree.pathOf workspace.directory

/-- The value of a variable. -/
def variableValue (workspace : Workspace) (name : String) : Option String :=
  workspace.environment.lookup name

/-- The home directory, which is that of the account unless a variable names one. -/
def home? (workspace : Workspace) : Option String :=
  (workspace.variableValue "HOME").or workspace.accountHome

/-- An absolute path for a path from the current directory. -/
def absolute (workspace : Workspace) (path : Path) : Path := workspace.directoryPath.join path

/-- Whether a path leads to a regular file. -/
def isFile (workspace : Workspace) (path : Path) : Bool :=
  workspace.tree.isFile workspace.directory path

end Workspace
end TidyLines
