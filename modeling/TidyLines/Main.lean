import TidyLines.CommandLine.Arguments
import TidyLines.CommandLine.Run

/-!
# The program

The program reads its arguments, the environment, the standard input and those files that the
command may look at.  It then runs the command on them and writes what the run yields.
-/

namespace TidyLines.Main

open CommandLine

/-- The variables that a run looks at. -/
def variableNames : List String :=
  ["HOME", "XDG_CONFIG_HOME", LogFilter.variableName, configVariable,
    ConfigOrigin.userDirectoryVariable]

/-- Reads the environment. -/
def readEnvironment : IO (List (String × String)) :=
  variableNames.filterMapM fun name => do return (← IO.getEnv name).map (name, ·)

/-- The files that count in every directory above the one where work takes place. -/
def namesAbove : List String :=
  [".ignore", ".gitignore", ".git/info/exclude"] ++ ConfigOrigin.projectNames

/-- The number of the account of a process, from the lines about the process. -/
def accountNumber? (status : List String) : Option String :=
  status.findSome? fun line =>
    match line.splitOn "\t" with
    | "Uid:" :: number :: _ => some number
    | _ => none

/-- The home directory of an account, from the lines about all accounts. -/
def homeOf? (accounts : List String) (number : String) : Option String :=
  accounts.findSome? fun line =>
    match line.splitOn ":" with
    | [_, _, other, _, _, home, _] => if other = number then some home else none
    | _ => none

/-- The lines of a file of the system; none if it cannot be read. -/
def readLines (path : String) : IO (List String) := do
  match ← (IO.FS.readFile path).toBaseIO with
  | .ok text => return text.splitOn "\n"
  | .error _ => return []

/-- Reads the home directory of the account. -/
def readAccountHome : IO (Option String) := do
  let accounts ← readLines "/etc/passwd"
  return (accountNumber? (← readLines "/proc/self/status")).bind (homeOf? accounts)

/-- The files of a user that count. -/
def userFiles (environment : List (String × String)) (home : Option String) : List String :=
  let below (directory : Option String) (files : List String) : List String :=
    directory.toList.flatMap fun directory => files.map fun file => directory ++ "/" ++ file
  below home
      [".gitconfig", ".config/git/config", ".config/git/ignore",
        ConfigOrigin.userDirectoryName ++ "/" ++ ConfigOrigin.userName] ++
    below (environment.lookup "XDG_CONFIG_HOME") ["git/config", "git/ignore"] ++
    below (environment.lookup ConfigOrigin.userDirectoryVariable) [ConfigOrigin.userName]

/-- The address of an absolute path without links. -/
def addressOf (path : String) : Address :=
  (Path.ofString path).segments.filter fun name => !Path.isTrivial name

/-- The path without links to what a path leads to, if it leads anywhere. -/
def real? (path : String) : IO (Option String) := do
  match ← (IO.FS.realPath path).toBaseIO with
  | .ok path => return some (toString path)
  | .error _ => return none

/-- Reads a regular file into a tree. -/
def addFile (tree : FileTree) (path : String) : IO FileTree := do
  match ← (IO.FS.readBinFile path).toBaseIO with
  | .ok bytes => return tree.plant (addressOf path) (.file bytes)
  | .error _ => return tree

/-- Reads all that is below a directory into a tree. -/
partial def addBelow (tree : FileTree) (directory : String) : IO FileTree := do
  let mut tree := tree.plant (addressOf directory) .directory
  for entry in ← (← IO.FS.realPath directory).readDir do
    let path := directory ++ "/" ++ entry.fileName
    match (← entry.path.symlinkMetadata).type with
    | .dir => tree ← addBelow tree path
    | .file => tree ← addFile tree path
    | .symlink =>
      if let some target ← real? path then
        tree := tree.plant (addressOf path) (.link (.ofString target))
    | .other => pure ()
  return tree

/-- Reads the links on the way of a path into a tree. -/
def addLinks (tree : FileTree) (path : Path) : IO FileTree := do
  let mut tree := tree
  for way in path.ancestors do
    let name := way.segments.getLastD ""
    let above ← real? (way.parent?.getD way).text
    let target ← real? way.text
    if let (some above, some target) := (above, target) then
      let address := addressOf above ++ [name]
      if name != ".." && !Path.isTrivial name && address != addressOf target then
        tree := tree.plant address (.link (.ofString target))
  return tree

/-- Reads what a path leads to into a tree, with the files that count above it. -/
def addPath (deep : Bool) (tree : FileTree) (path : Path) : IO FileTree := do
  let mut tree ← addLinks tree path
  if let some target ← real? path.text then
    for directory in (Path.ofString target).ancestors do
      for name in namesAbove do
        tree ← addFile tree (directory.child name).text
    let isDirectory := (← (IO.FS.realPath target >>= fun file => file.isDir).toBaseIO).toOption
    if isDirectory != some true then
      tree ← addFile tree target
    else if deep then
      tree ← addBelow tree target
    else
      tree := tree.plant (addressOf target) .directory
  return tree

/-- The surroundings of an invocation. -/
def readWorkspace (invocation : Invocation) (environment : List (String × String)) :
    IO Workspace := do
  let current := (← real? ".").getD "/"
  let absolute (path : Path) : Path := (Path.ofString current).join path
  let start : Workspace := {
    tree := {}
    directory := addressOf current
    environment
    accountHome := ← readAccountHome }
  let target := ((targetOf invocation.command).bind Target.path).getD defaultTarget
  let paths := [defaultTarget, target] ++ invocation.config.toList ++
    (userFiles environment start.home?).map Path.ofString
  let tree ← (paths.map absolute).foldlM (addPath false) {}
  let ignored := (Ignore.userFile? tree start.directory environment start.home?).toList
  let tree ← (ignored.map absolute).foldlM (addPath false) tree
  let workspace : Workspace := { start with tree }
  match rootOf? workspace invocation with
  | none => return workspace
  | some root => return { workspace with tree := ← addPath true tree (absolute root) }

/-- Writes the files that a run changed. -/
def writeChanges (before after : FileTree) : IO Unit := do
  for (address, entry) in after.entries do
    if let some bytes := entry.bytes? then
      if (before.get? address).bind Entry.bytes? != some bytes then
        IO.FS.writeBinFile (FileTree.pathOf address).text bytes

/-- Runs an invocation. -/
def runInvocation (invocation : Invocation) (environment : List (String × String)) :
    IO UInt32 := do
  let workspace ← readWorkspace invocation environment
  let reads := ((targetOf invocation.command).map Target.standardInput).getD false
  let input ← if reads then (← IO.getStdin).readBinToEnd else pure ByteArray.empty
  let outcome := run workspace input invocation
  writeChanges workspace.tree outcome.tree
  for line in logLines invocation environment outcome do
    IO.eprintln line
  IO.print outcome.output
  if let some failure := outcome.failure then
    IO.eprintln failure.report
  return outcome.exitCode.toUInt32

end TidyLines.Main

/-- Runs the program with its arguments. -/
def main (arguments : List String) : IO UInt32 := do
  let environment ← TidyLines.Main.readEnvironment
  match TidyLines.CommandLine.Invocation.ofArguments arguments environment with
  | .ok invocation => TidyLines.Main.runInvocation invocation environment
  | .error .help =>
    IO.print TidyLines.CommandLine.usageLine
    return 0
  | .error .version =>
    IO.print TidyLines.CommandLine.versionLine
    return 0
  | .error .usage =>
    IO.eprint TidyLines.CommandLine.usageLine
    return 2
