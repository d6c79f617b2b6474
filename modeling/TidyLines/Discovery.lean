import TidyLines.Glob
import TidyLines.Ignore.Files
import TidyLines.Ignore.User
import TidyLines.Workspace

/-!
# Finding the files of a project

A file below the root is found if every step on the way to it is admitted by the ignore files and
if it passes the patterns for leaving out and taking files.  Files are found in the order of their
paths.  A root that is itself a file is found without further conditions.
-/

namespace TidyLines

namespace Text

/-- Whether a text has another one in it. -/
def hasInfix (part : Text) : Text → Bool
  | [] => part.isEmpty
  | character :: rest => part.isPrefixOf (character :: rest) || hasInfix part rest

/-- A text without pairs of stars. -/
def dropStarPairs : Text → Text
  | '*' :: '*' :: rest => dropStarPairs rest
  | character :: rest => character :: dropStarPairs rest
  | [] => []

end Text

/-- A pattern with its parts. -/
structure Filter where
  pattern : Text
  tokens : List Glob.Token

namespace Filter

/-- Reads a pattern. -/
def parse (pattern : String) : Except Glob.Error Filter := do
  return { pattern := pattern.toList, tokens := ← Glob.parse pattern.toList }

/-- Whether a text matches a pattern. -/
def accepts (filter : Filter) (text : Text) : Bool := Glob.accepts filter.tokens text

/-- Whether the characters of a pattern without its pairs of stars stand somewhere in a text. -/
def occursIn (filter : Filter) (text : Text) : Bool :=
  let part := Text.dropStarPairs filter.pattern
  1 < Text.byteLength part && Text.hasInfix part text

end Filter

/-- A file that has been found. -/
structure FoundFile where
  path : Path
  address : Address
  /-- What the file held when it was found. -/
  bytes : ByteArray

/-- What has to be known to find files. -/
structure Search where
  root : Path
  excluded : List Filter
  /-- The patterns of files to take; all files, if there are none. -/
  included : List Filter
  /-- Whether the ignore files of a version control system count. -/
  respectIgnoreFiles : Bool

namespace Search

/-- The text of a path as seen from the root. -/
def relativeText (search : Search) (path : Path) : Text :=
  ((search.root.stripPrefix? path).getD path).text.toList

/-- Whether a path is left out: it matches a pattern, in full or from the root, or it has the
characters of one. -/
def excludes (search : Search) (path : Path) : Bool :=
  let relative := search.relativeText path
  search.excluded.any (fun filter => filter.accepts path.text.toList || filter.accepts relative) ||
    search.excluded.any (fun filter => filter.occursIn ('/' :: relative))

/-- Whether a path is among those to take. -/
def includes (search : Search) (path : Path) : Bool :=
  search.included.isEmpty ||
    search.included.any fun filter => filter.accepts (search.relativeText path)

/-- The ignore files that count. -/
def ignoreContext (search : Search) (workspace : Workspace) : Ignore.Context where
  files := Ignore.loadAll workspace.tree search.respectIgnoreFiles
  kinds := Ignore.kinds search.respectIgnoreFiles
  userRules :=
    if search.respectIgnoreFiles then
      Ignore.userRules workspace.tree workspace.directory workspace.environment workspace.home?
    else []
  userDirectory := workspace.directoryPath.text.toList

/-- The path of names below the root. -/
def pathOf (search : Search) (names : List String) : Path := search.root.join ⟨names⟩

/-- Whether the ignore files admit every step from the root to a file. -/
def admits (search : Search) (context : Ignore.Context) (root : Address) (names : List String) :
    Bool :=
  (List.range names.length).all fun count =>
    let way := names.take (count + 1)
    context.admits (root ++ way) (search.pathOf way).text.toList (count + 1 < names.length)

/-- The files below a directory that the walk yields, in no particular order. -/
def walked (search : Search) (workspace : Workspace) (root : Address) : List FoundFile :=
  let context := search.ignoreContext workspace
  (workspace.tree.filesBelow root).filterMap fun (names, bytes) =>
    if search.admits context root names then
      some { path := search.pathOf names, address := root ++ names, bytes }
    else none

/-- Whether one file comes before another one, or both have the same path. -/
def inOrder (first second : FoundFile) : Bool := first.path.order second.path != .gt

/-- The files that are found below a directory. -/
def filesBelow (search : Search) (workspace : Workspace) (root : Address) : List FoundFile :=
  ((search.walked workspace root).filter fun file =>
    !search.excludes file.path && search.includes file.path).mergeSort inOrder

/-- The message for a root that cannot be walked. -/
def rootMessage (search : Search) (fault : Fault) : String :=
  search.root.text ++ ": IO error for operation on " ++ search.root.text ++ ": " ++ fault.message

/-- Finds the files, or says why the root cannot be walked. -/
def find (search : Search) (workspace : Workspace) : Except String (List FoundFile) :=
  match workspace.tree.resolve workspace.directory search.root with
  | .error fault => .error (search.rootMessage fault)
  | .ok address =>
    match workspace.tree.get? address with
    | some (.file bytes) => .ok [{ path := search.root, address, bytes }]
    | _ =>
      match Ignore.complaintsAbove workspace.tree search.respectIgnoreFiles address with
      | [] => .ok (search.filesBelow workspace address)
      | complaints => .error ("\n".intercalate complaints)

end Search
end TidyLines
