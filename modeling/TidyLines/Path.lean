/-!
# Paths

A path is the list of the segments between its slashes, so that its exact spelling is kept:
`"/a//b/"` has the segments `""`, `"a"`, `""`, `"b"` and `""`.  What a path means is read from its
components: the root or a leading dot, then every segment except the empty ones and the dots.
Paths are compared by components, never by spelling.
-/

namespace TidyLines

/-- The segments between the slashes of a path. -/
structure Path where
  /-- The segments in order; the empty path has one empty segment. -/
  segments : List String
  deriving DecidableEq, Repr

namespace Path

/-- Reads a path from its spelling. -/
def ofString (spelling : String) : Path :=
  ⟨(spelling.toList.splitOn '/').map String.ofList⟩

/-- The spelling of a path. -/
def text (path : Path) : String := "/".intercalate path.segments

instance : Inhabited Path := ⟨⟨[""]⟩⟩

/-- The path with an empty spelling. -/
def empty : Path := ⟨[""]⟩

/-- Whether a path starts at the root. -/
def isAbsolute (path : Path) : Bool :=
  match path.segments with
  | "" :: _ :: _ => true
  | _ => false

/-- One meaningful part of a path. -/
inductive Component where
  | root
  | current
  | parent
  | name (text : String)
  deriving DecidableEq, Repr

namespace Component

/-- The place of a kind of component among the others. -/
def rank : Component → Nat
  | root => 0
  | current => 1
  | parent => 2
  | name _ => 3

/-- The name that a component is, or nothing. -/
def text : Component → String
  | name text => text
  | _ => ""

/-- Components are ordered by kind and then by name. -/
def order : Component → Component → Ordering :=
  compareLex (compareOn rank) (compareOn text)

/-- The component that a segment after the first one stands for. -/
def ofSegment? (segment : String) : Option Component :=
  if segment = "" || segment = "." then none
  else if segment = ".." then some parent
  else some (name segment)

end Component

/-- What comes before the names of a path: the root, a leading dot, or nothing. -/
def anchor (path : Path) : Option Component :=
  if path.isAbsolute then some .root
  else if path.segments.head? = some "." then some .current
  else none

/-- The segments of a path after its anchor. -/
def body (path : Path) : List String :=
  if path.anchor.isSome then path.segments.tail else path.segments

/-- The meaningful parts of a path. -/
def components (path : Path) : List Component :=
  path.anchor.toList ++ path.body.filterMap Component.ofSegment?

/-- Paths are compared part by part. -/
def order (first second : Path) : Ordering :=
  List.compareLex Component.order first.components second.components

/-- A path read from the directory that another path names.  An absolute path stays itself. -/
def join (base path : Path) : Path :=
  if path.isAbsolute then path
  else if base.segments.getLast? = some "" then ⟨base.segments.dropLast ++ path.segments⟩
  else ⟨base.segments ++ path.segments⟩

/-- Whether a segment says nothing. -/
def isTrivial (segment : String) : Bool := segment == "" || segment == "."

/-- Segments without those at the end that say nothing. -/
def trimEnd (segments : List String) : List String :=
  (segments.reverse.dropWhile isTrivial).reverse

/-- A relative path of the given segments, those at either end that say nothing left out. -/
def ofBody (segments : List String) : Path :=
  match trimEnd (segments.dropWhile isTrivial) with
  | [] => empty
  | kept => ⟨kept⟩

/-- A path of an anchor and segments, those at the end that say nothing left out. -/
def ofAnchored : Option Component → List String → Path
  | some .root, segments =>
    match trimEnd segments with
    | [] => ⟨["", ""]⟩
    | kept => ⟨"" :: kept⟩
  | some .current, segments => ⟨"." :: trimEnd segments⟩
  | _, segments =>
    match trimEnd segments with
    | [] => empty
    | kept => ⟨kept⟩

/-- The segments that are left when the given components are taken from the front. -/
def dropComponents : List Component → List String → Option (List String)
  | [], segments => some segments
  | component :: others, segments =>
    match segments.dropWhile isTrivial with
    | [] => none
    | segment :: rest =>
      if Component.ofSegment? segment = some component then dropComponents others rest else none

/-- The rest of a path after the parts of another one, if it starts with them. -/
def stripPrefix? (base path : Path) : Option Path :=
  match base.components with
  | [] => some (ofAnchored path.anchor path.body)
  | first :: others =>
    match path.anchor with
    | some component =>
      if component = first then (dropComponents others path.body).map ofBody else none
    | none => (dropComponents (first :: others) path.body).map ofBody

/-- A path as seen from a root: what follows the root, or the whole path where it is not below the
root or is the root itself. -/
def relativeTo (root path : Path) : Path :=
  match stripPrefix? root path with
  | none => path
  | some rest => if rest = empty then path else rest

/-- The directory that holds what a path names.  The root and the empty path have none. -/
def parent? (path : Path) : Option Path :=
  match trimEnd path.body with
  | [] =>
    match path.anchor with
    | some .current => some empty
    | _ => none
  | segments => some (ofAnchored path.anchor segments.dropLast)

/-- A path and the directories above it, as far up as the given number of steps. -/
def ancestorsWithin : Nat → Path → List Path
  | 0, path => [path]
  | steps + 1, path =>
    path :: match path.parent? with
      | none => []
      | some parent => ancestorsWithin steps parent

/-- A path and all directories above it, the nearest first. -/
def ancestors (path : Path) : List Path := ancestorsWithin path.segments.length path

/-- The path of a named entry of a directory. -/
def child (directory : Path) (name : String) : Path := directory.join ⟨[name]⟩

end Path
end TidyLines
