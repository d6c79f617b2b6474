import TidyLines.FileTree
import TidyLines.Ignore.Rules

/-!
# Which ignore files count for a path

Three kinds of ignore files may stand in a directory.  The nearest file that says anything counts
within its kind, and the kinds are ranked.  Below them all is one file of the user.
-/

namespace TidyLines.Ignore

/-- The kinds of ignore files that stand in a directory. -/
inductive Kind where
  /-- The file that always counts. -/
  | plain
  /-- The file of the version control system. -/
  | shared
  | ownCopy
  deriving DecidableEq, Repr

/-- The place of an ignore file in its directory. -/
def Kind.path : Kind → Path
  | plain => .ofString ".ignore"
  | shared => .ofString ".gitignore"
  | ownCopy => .ofString ".git/info/exclude"

/-- The kinds that count, the strongest one first. -/
def kinds (respected : Bool) : List Kind :=
  if respected then [.plain, .shared, .ownCopy] else [.plain]

/-- An ignore file that has been read. -/
structure LoadedFile where
  directory : Address
  kind : Kind
  rules : Rules

/-- The ignore file of one kind in a directory; a missing one is empty. -/
def load (tree : FileTree) (directory : Address) (kind : Kind) : LoadedFile where
  directory
  kind
  rules := match tree.read directory kind.path with
    | .ok bytes => .ofBytes bytes
    | .error _ => {}

/-- The directories in a tree. -/
def directoriesOf (tree : FileTree) : List Address :=
  [] :: tree.entries.filterMap fun (address, entry) =>
    match entry with
    | .directory => some address
    | _ => none

/-- The ignore files that count in a tree. -/
def loadAll (tree : FileTree) (respected : Bool) : List LoadedFile :=
  (directoriesOf tree).flatMap fun directory =>
    (kinds respected).filterMap fun kind =>
      let file := load tree directory kind
      if file.rules.reversed.isEmpty then none else some file

/-- The text of a path below a directory. -/
def below (names : List String) : Text := ("/".intercalate names).toList

/-- What the ignore files of one kind say about an address, the nearest one first.  The count is of
the names in the address of the directory to start with. -/
def judgeKind? (files : List LoadedFile) (kind : Kind) (address : Address) (isDirectory : Bool) :
    Nat → Option Verdict
  | 0 => judgeAt 0
  | count + 1 => (judgeAt (count + 1)).or (judgeKind? files kind address isDirectory count)
where
  /-- What the file in one of the directories on the way to the address says. -/
  judgeAt (count : Nat) : Option Verdict :=
    match files.find? fun file => file.kind == kind && file.directory == address.take count with
    | some file => judge? file.rules.reversed (below (address.drop count)) isDirectory
    | none => none

/-- The ignore files that count for a run. -/
structure Context where
  files : List LoadedFile
  /-- The kinds that count, the strongest one first. -/
  kinds : List Kind
  /-- The rules of the user, the last one first. -/
  userRules : List Rule
  /-- The path of the directory to which the rules of the user refer. -/
  userDirectory : Text

/-- A text without another one at its start, if it is there. -/
def dropStart (start text : Text) : Text :=
  if start.isPrefixOf text then text.drop start.length else text

/-- What the rules of the user say about a path. -/
def Context.judgeUser? (context : Context) (path : Text) (isDirectory : Bool) : Option Verdict :=
  judge? context.userRules (dropStart ['/'] (dropStart context.userDirectory path)) isDirectory

/-- What all ignore files say about an address, which is shown as the given path. -/
def Context.judge? (context : Context) (address : Address) (path : Text) (isDirectory : Bool) :
    Option Verdict :=
  (context.kinds.findSome? fun kind =>
    judgeKind? context.files kind address isDirectory (address.length - 1)).or
    (context.judgeUser? path isDirectory)

/-- Whether a name is hidden. -/
def isHidden (name : String) : Bool := name.startsWith "."

/-- Whether a walk enters or yields an address.  Hidden names are left out unless an ignore file
keeps them. -/
def Context.admits (context : Context) (address : Address) (path : Text) (isDirectory : Bool) :
    Bool :=
  match context.judge? address path isDirectory with
  | some .ignored => false
  | some .kept => true
  | none => !isHidden (address.getLastD "")

/-- What is wrong with the ignore files of the directories above an address, the outermost
directory first. -/
def complaintsAbove (tree : FileTree) (respected : Bool) (address : Address) : List String :=
  (List.range address.length).flatMap fun count =>
    let directory := address.take count
    (kinds respected).flatMap fun kind =>
      (load tree directory kind).rules.complaints.map fun complaint =>
        ((FileTree.pathOf directory).join kind.path).text ++ ": " ++ complaint.message

end TidyLines.Ignore
