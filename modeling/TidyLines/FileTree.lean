import TidyLines.Path
import TidyLines.Text

/-!
# Trees of files

A tree says what is at each address, where an address is the list of names from the root down.
Paths are resolved against a directory; resolving follows links, of which there may be a bounded
number on the way.
-/

namespace TidyLines

/-- The names from the root of a tree down to an entry. -/
abbrev Address := List String

/-- What can be at an address. -/
inductive Entry where
  | file (bytes : ByteArray)
  | directory
  | link (target : Path)

instance : DecidableEq Entry
  | .file bytes, .file other =>
      decidable_of_iff (bytes.data = other.data) (by rw [Entry.file.injEq, ByteArray.ext_iff])
  | .directory, .directory => isTrue rfl
  | .link target, .link other =>
      decidable_of_iff (target = other) (by rw [Entry.link.injEq])
  | .file _, .directory | .file _, .link _ => isFalse nofun
  | .directory, .file _ | .directory, .link _ => isFalse nofun
  | .link _, .file _ | .link _, .directory => isFalse nofun

/-- Whether an entry is a directory. -/
def Entry.isDirectory : Entry → Bool
  | directory => true
  | _ => false

/-- The bytes of an entry that is a regular file. -/
def Entry.bytes? : Entry → Option ByteArray
  | file bytes => some bytes
  | _ => none

/-- Why a path cannot be used. -/
inductive Fault where
  | notFound
  | notDirectory
  | isDirectory
  | tooManyLinks
  | nameTooLong
  /-- The path has a character that no path may have. -/
  | nulCharacter
  | notText
  deriving DecidableEq, Repr

/-- Says why a path cannot be used, in the words of the operating system where it decides. -/
def Fault.message : Fault → String
  | notFound => "No such file or directory (os error 2)"
  | notDirectory => "Not a directory (os error 20)"
  | isDirectory => "Is a directory (os error 21)"
  | tooManyLinks => "Too many levels of symbolic links (os error 40)"
  | nameTooLong => "File name too long (os error 36)"
  | nulCharacter => "file name contained an unexpected NUL byte"
  | notText => "stream did not contain valid UTF-8"

/-- A tree of files, with each address at most once.  The root is a directory without being
listed. -/
structure FileTree where
  entries : List (Address × Entry) := []

namespace FileTree

/-- What is at an address. -/
def get? (tree : FileTree) (address : Address) : Option Entry :=
  if address = [] then some .directory else tree.entries.lookup address

/-- Whether a directory is at an address. -/
def isDirectoryAt (tree : FileTree) (address : Address) : Bool :=
  (tree.get? address).any Entry.isDirectory

/-- Entries with one of them replaced, or added at the end. -/
def setEntry (address : Address) (entry : Entry) :
    List (Address × Entry) → List (Address × Entry)
  | [] => [(address, entry)]
  | first :: others =>
    if first.1 == address then (address, entry) :: others
    else first :: setEntry address entry others

/-- A tree with an entry at an address, in place of what was there. -/
def put (tree : FileTree) (address : Address) (entry : Entry) : FileTree :=
  ⟨setEntry address entry tree.entries⟩

/-- A tree without an address and all that is below it. -/
def remove (tree : FileTree) (address : Address) : FileTree :=
  ⟨tree.entries.filter fun entry => !address.isPrefixOf entry.1⟩

/-- A tree with an entry and all the directories on the way to it. -/
def plant (tree : FileTree) (address : Address) (entry : Entry) : FileTree :=
  let directories := (List.range address.length).map (address.take ·)
  let grown := directories.foldl (fun grown directory =>
    if (grown.get? directory).isSome then grown else grown.put directory .directory) tree
  grown.put address entry

theorem lookup_setEntry (address other : Address) (entry : Entry)
    (entries : List (Address × Entry)) :
    (setEntry address entry entries).lookup other =
      if other = address then some entry else entries.lookup other := by
  induction entries with
  | nil =>
    by_cases same : other = address
    · simp [setEntry, same]
    · have differs : (other == address) = false := by simp [same]
      simp [setEntry, List.lookup_cons, differs, same]
  | cons first others inductionHypothesis =>
    obtain ⟨name, value⟩ := first
    by_cases here : name = address
    · subst here
      by_cases same : other = name
      · simp [setEntry, same]
      · have differs : (other == name) = false := by simp [same]
        simp [setEntry, List.lookup_cons, differs, same]
    · have elsewhere : (name == address) = false := by simp [here]
      by_cases same : other = name
      · subst same
        simp [setEntry, elsewhere, here]
      · have differs : (other == name) = false := by simp [same]
        simp [setEntry, elsewhere, List.lookup_cons, differs, inductionHypothesis]

/-- A new entry changes the tree at its own address only. -/
theorem get?_put (tree : FileTree) (address other : Address) (entry : Entry)
    (below : address ≠ []) :
    (tree.put address entry).get? other =
      if other = address then some entry else tree.get? other := by
  by_cases root : other = []
  · subst root
    simp [get?, Ne.symm below]
  · simp [get?, root, put, lookup_setEntry]

/-- The number of links that may be followed to resolve one path. -/
def linkBudget : Nat := 40

/-- The number of bytes that a name may have. -/
def nameBound : Nat := 255

/-- The number of bytes that a path must stay below. -/
def pathBound : Nat := 4096

/-- The address to which steps lead from a directory, following at most the given number of links.
A last name that is missing is an address to write to. -/
def walkTo (tree : FileTree) (writing : Bool) (links : Nat) (here : Address)
    (steps : List String) : Except Fault Address :=
  match steps with
  | [] => .ok here
  | step :: rest =>
    if tree.isDirectoryAt here then
      if Path.isTrivial step then walkTo tree writing links here rest
      else if step = ".." then walkTo tree writing links here.dropLast rest
      else if nameBound < step.utf8ByteSize then .error .nameTooLong
      else match tree.get? (here ++ [step]) with
        | none =>
          if writing && rest.isEmpty then .ok (here ++ [step]) else .error .notFound
        | some (.link target) =>
          match links with
          | 0 => .error .tooManyLinks
          | links + 1 =>
            walkTo tree writing links (if target.isAbsolute then [] else here)
              (target.segments ++ rest)
        | some _ => walkTo tree writing links (here ++ [step]) rest
    else .error .notDirectory
termination_by (links, steps.length)

/-- Checks the spelling of a path. -/
def checkSpelling (path : Path) : Except Fault Unit :=
  if path = .empty then .error .notFound
  else if path.text.contains '\x00' then .error .nulCharacter
  else if pathBound ≤ path.text.utf8ByteSize then .error .nameTooLong
  else .ok ()

/-- The address where resolving a path starts. -/
def startOf (directory : Address) (path : Path) : Address :=
  if path.isAbsolute then [] else directory

/-- The address of what a path leads to from a directory. -/
def resolve (tree : FileTree) (directory : Address) (path : Path) : Except Fault Address := do
  checkSpelling path
  tree.walkTo false linkBudget (startOf directory path) path.segments

/-- Whether a path leads to anything. -/
def leadsSomewhere (tree : FileTree) (directory : Address) (path : Path) : Bool :=
  (tree.resolve directory path).isOk

/-- What a path leads to. -/
def entryAt? (tree : FileTree) (directory : Address) (path : Path) : Option Entry :=
  match tree.resolve directory path with
  | .ok address => tree.get? address
  | .error _ => none

/-- Whether a path leads to a regular file. -/
def isFile (tree : FileTree) (directory : Address) (path : Path) : Bool :=
  match tree.entryAt? directory path with
  | some (.file _) => true
  | _ => false

/-- The bytes of the file to which a path leads. -/
def read (tree : FileTree) (directory : Address) (path : Path) : Except Fault ByteArray := do
  match tree.get? (← tree.resolve directory path) with
  | some (.file bytes) => .ok bytes
  | some .directory => .error .isDirectory
  | _ => .error .notFound

/-- The text of the file to which a path leads. -/
def readText (tree : FileTree) (directory : Address) (path : Path) : Except Fault Text := do
  match Text.decode? (← tree.read directory path) with
  | some text => .ok text
  | none => .error .notText

/-- The tree after the bytes of the file to which a path leads are replaced.  A missing file is
made. -/
def write (tree : FileTree) (directory : Address) (path : Path) (bytes : ByteArray) :
    Except Fault FileTree := do
  checkSpelling path
  let address ← tree.walkTo true linkBudget (startOf directory path) path.segments
  if tree.isDirectoryAt address then .error .isDirectory
  else .ok (tree.put address (.file bytes))

/-- The absolute path of an address. -/
def pathOf (address : Address) : Path :=
  match address with
  | [] => ⟨["", ""]⟩
  | names => ⟨"" :: names⟩

/-- Whether all but the last of some names lead from directory to directory. -/
def leadsThrough (tree : FileTree) (address : Address) (names : List String) : Bool :=
  (List.range names.length).all fun count => tree.isDirectoryAt (address ++ names.take count)

/-- The regular files below an address, each with the names that lead to it from there and with its
bytes. -/
def filesBelow (tree : FileTree) (address : Address) : List (List String × ByteArray) :=
  tree.entries.filterMap fun (place, entry) =>
    match entry with
    | .file bytes =>
      let names := place.drop address.length
      if address.isPrefixOf place && address.length < place.length &&
          tree.leadsThrough address names then
        some (names, bytes)
      else none
    | _ => none

end FileTree
end TidyLines
