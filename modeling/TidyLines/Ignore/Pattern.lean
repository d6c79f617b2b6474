import TidyLines.Text

/-!
# Patterns of ignore files

These patterns are matched against the UTF-8 bytes of a path.  A star stops at slashes, two stars
between slashes stand for any number of directories, braces hold alternatives and a backslash takes
the next character as it is.  A bracket that is never closed stands for itself.
-/

namespace TidyLines.Ignore

/-- The bytes of a path. -/
abbrev Bytes := List UInt8

/-- The UTF-8 bytes of a text. -/
def bytesOf (text : Text) : Bytes := text.flatMap fun character => String.utf8EncodeChar character

/-- One part of a pattern. -/
inductive Token where
  | byte (value : UInt8)
  | anyByte
  /-- Any run of bytes without a slash. -/
  | anyRun
  /-- Any directories, at the start of a path. -/
  | leadingDirectories
  /-- A slash and all that follows. -/
  | everythingBelow
  /-- A slash, perhaps with directories and one more slash. -/
  | innerDirectories
  /-- A byte in one of some ranges, or in none of them. -/
  | oneOf (negated : Bool) (ranges : List (UInt8 × UInt8))
  /-- One of some patterns; nothing at all, if there are none. -/
  | alternatives (branches : List (List Token))

/-- What is wrong with a pattern. -/
inductive Defect where
  /-- A range of characters ends before it starts. -/
  | badRange (first last : Char)
  | unopened
  | unclosed
  | dangling
  deriving DecidableEq, Repr

/-- Says what is wrong with a pattern. -/
def Defect.message : Defect → String
  | badRange first last =>
    "invalid range; '" ++ first.toString ++ "' > '" ++ last.toString ++ "'"
  | unopened =>
    "unopened alternate group; missing '\x7b' (maybe escape '\x7d' with '[\x7d]'?)"
  | unclosed =>
    "unclosed alternate group; missing '\x7d' (maybe escape '\x7b' with '[\x7b]'?)"
  | dangling => "dangling '\\'"

/-- The ranges of bytes for a range of characters.  Characters of more than one byte count byte by
byte, with the range between the bytes that meet. -/
def rangesOf (first last : Char) : List (UInt8 × UInt8) :=
  if first = last then (String.utf8EncodeChar first).map fun byte => (byte, byte)
  else
    let start := String.utf8EncodeChar first
    let finish := String.utf8EncodeChar last
    start.dropLast.map (fun byte => (byte, byte)) ++
      [(start.getLastD 0, finish.headD 0)] ++ finish.tail.map fun byte => (byte, byte)

/-- The characters between brackets, while they are being read. -/
structure Members where
  /-- The ranges so far, the last one first. -/
  reversed : List (Char × Char) := []
  /-- Whether a dash awaits the end of a range. -/
  dash : Bool := false

/-- Adds a character between brackets, which may end a range. -/
def Members.add (members : Members) (character : Char) : Except Defect Members :=
  match members.dash, members.reversed with
  | true, (first, _) :: earlier =>
    if character < first then .error (.badRange first character)
    else .ok ⟨(first, character) :: earlier, false⟩
  | _, reversed => .ok ⟨(character, character) :: reversed, false⟩

/-- The ranges between brackets that have been closed.  A dash at the end stands for itself. -/
def Members.ranges (members : Members) : List (UInt8 × UInt8) :=
  let all := if members.dash then ('-', '-') :: members.reversed else members.reversed
  all.reverse.flatMap fun (first, last) => rangesOf first last

/-- What a text after an opening bracket holds. -/
inductive Bracketed where
  /-- A choice and the number of characters up to its closing bracket. -/
  | choice (members : Members) (size : Nat)
  | unclosed

/-- Reads the characters between brackets. -/
def readMembers (members : Members) (isFirst : Bool) (size : Nat) :
    Text → Except Defect Bracketed
  | [] => .ok .unclosed
  | character :: rest =>
    if character = ']' && !isFirst then .ok (.choice members (size + 1))
    else if character = '-' && !isFirst && !members.dash then
      readMembers { members with dash := true } false (size + 1) rest
    else do
      readMembers (← members.add character) false (size + 1) rest

/-- Reads what follows an opening bracket: whether it is negated, and its members. -/
def readBracketed : Text → Except Defect (Bool × Bracketed)
  | '!' :: rest => do return (true, ← readMembers {} true 1 rest)
  | '^' :: rest => do return (true, ← readMembers {} true 1 rest)
  | rest => do return (false, ← readMembers {} true 0 rest)

/-- A pattern that is being read. -/
structure Reader where
  /-- The parts of the current branch, the last one first. -/
  current : List Token := []
  /-- The open groups, the inner one first: the finished branches, the last one first, and what
  came before the group. -/
  groups : List (List (List Token) × List Token) := []
  last : Option Char := none
  /-- Whether opening brackets stand for themselves from here on. -/
  literalBrackets : Bool := false

namespace Reader

/-- Adds a part to the current branch. -/
def add (reader : Reader) (token : Token) : Reader :=
  { reader with current := token :: reader.current }

/-- Adds a character that stands for itself. -/
def addLiteral (reader : Reader) (character : Char) : Reader :=
  { reader with
    current := ((String.utf8EncodeChar character).map Token.byte).reverse ++ reader.current }

/-- Whether a branch says nothing at all. -/
def isVoid (branch : List Token) : Bool :=
  branch.all fun token =>
    match token with
    | .alternatives [] => true
    | _ => false

/-- Opens a group. -/
def openGroup (reader : Reader) : Reader :=
  { reader with current := [], groups := ([], reader.current) :: reader.groups }

/-- Ends a branch of a group; outside groups a comma stands for itself. -/
def comma (reader : Reader) : Reader :=
  match reader.groups with
  | [] => reader.addLiteral ','
  | (branches, outer) :: others =>
    { reader with current := [], groups := (reader.current :: branches, outer) :: others }

/-- Closes a group.  Branches that say nothing are left out. -/
def closeGroup (reader : Reader) : Except Defect Reader :=
  match reader.groups with
  | [] => .error .unopened
  | (branches, outer) :: others =>
    let all := (reader.current :: branches).reverse.map List.reverse
    let meaningful := all.filter fun branch => !isVoid branch
    .ok { reader with current := .alternatives meaningful :: outer, groups := others }

/-- Adds two stars that are not alone between slashes. -/
def addTwoRuns (reader : Reader) : Reader := (reader.add .anyRun).add .anyRun

/-- Puts a part in place of the slash before two stars. -/
def replaceSlash (reader : Reader) (token : Token) : Reader :=
  match reader.current with
  | .leadingDirectories :: others => { reader with current := .leadingDirectories :: others }
  | .everythingBelow :: others => { reader with current := .everythingBelow :: others }
  | _ :: others => { reader with current := token :: others }
  | [] => reader.add token

/-- Adds two stars, given the characters before and after them, and says whether the slash after
them belongs to them. -/
def addStars (reader : Reader) (before : Option Char) (next : Option Char) : Reader × Bool :=
  let slashFollows := next == some '/'
  if reader.current.isEmpty then
    if next.isNone || slashFollows then (reader.add .leadingDirectories, slashFollows)
    else (reader.addTwoRuns, false)
  else if before != some '/' &&
      (reader.groups.isEmpty || (before != some ',' && before != some '\x7b')) then
    (reader.addTwoRuns, false)
  else if next.isNone || ((next == some ',' || next == some '\x7d') && !reader.groups.isEmpty) then
    (reader.replaceSlash .everythingBelow, false)
  else if slashFollows then (reader.replaceSlash .innerDirectories, true)
  else (reader.addTwoRuns, false)

/-- Reads a pattern, passing over the given number of characters first. -/
def readFrom (reader : Reader) (skip : Nat) : Text → Except Defect Reader
  | [] => .ok reader
  | character :: rest =>
    let before := reader.last
    let reader := { reader with last := some character }
    match skip with
    | skip + 1 => readFrom reader skip rest
    | 0 =>
      match character with
      | '?' => readFrom (reader.add .anyByte) 0 rest
      | '*' =>
        match rest with
        | '*' :: after =>
          let (reader, takesSlash) := reader.addStars before after.head?
          readFrom reader (if takesSlash then 2 else 1) rest
        | _ => readFrom (reader.add .anyRun) 0 rest
      | '\\' =>
        match rest with
        | [] => .error .dangling
        | escaped :: _ => readFrom (reader.addLiteral escaped) 1 rest
      | '\x7b' => readFrom reader.openGroup 0 rest
      | '\x7d' => do readFrom (← reader.closeGroup) 0 rest
      | ',' => readFrom reader.comma 0 rest
      | '[' =>
        if reader.literalBrackets then readFrom (reader.addLiteral '[') 0 rest
        else do
          match ← readBracketed rest with
          | (_, .unclosed) =>
            readFrom { reader.addLiteral '[' with literalBrackets := true } 0 rest
          | (negated, .choice members size) =>
            readFrom (reader.add (.oneOf negated members.ranges)) size rest
      | _ => readFrom (reader.addLiteral character) 0 rest

end Reader

/-- The parts of a pattern. -/
def parsePattern (pattern : Text) : Except Defect (List Token) := do
  let reader ← Reader.readFrom {} 0 pattern
  if reader.groups.isEmpty then return reader.current.reverse else throw .unclosed

/-- The value of the slash. -/
def slash : UInt8 := 0x2F

/-- Tries to go on after every slash. -/
def afterSlash (next : Bytes → Bool) : Bytes → Bool
  | [] => false
  | byte :: rest => (byte == slash && next rest) || afterSlash next rest

/-- Tries to go on after every run of bytes without a slash. -/
def afterRun (next : Bytes → Bool) : Bytes → Bool
  | [] => next []
  | byte :: rest => next (byte :: rest) || (byte != slash && afterRun next rest)

/-- Tries to go on after every run of bytes. -/
def afterAnything (next : Bytes → Bool) : Bytes → Bool
  | [] => next []
  | byte :: rest => next (byte :: rest) || afterAnything next rest

mutual

/-- Matches a part of a pattern, and what follows by a test of the rest. -/
def Token.accepts (next : Bytes → Bool) : Token → Bytes → Bool
  | .byte value, bytes =>
    match bytes with
    | first :: rest => first == value && next rest
    | [] => false
  | .anyByte, bytes =>
    match bytes with
    | first :: rest => first != slash && next rest
    | [] => false
  | .oneOf negated ranges, bytes =>
    match bytes with
    | first :: rest =>
      ranges.any (fun (low, high) => low ≤ first && first ≤ high) != negated && next rest
    | [] => false
  | .anyRun, bytes => afterRun next bytes
  | .leadingDirectories, bytes => next bytes || afterSlash next bytes
  | .everythingBelow, bytes =>
    match bytes with
    | first :: rest => first == slash && afterAnything next rest
    | [] => false
  | .innerDirectories, bytes =>
    match bytes with
    | first :: rest => first == slash && (next rest || afterSlash next rest)
    | [] => false
  | .alternatives branches, bytes =>
    match branches with
    | [] => next bytes
    | branch :: others => acceptsSome next (branch :: others) bytes

/-- Matches the parts of a pattern, and what follows by a test of the rest. -/
def acceptsAll (next : Bytes → Bool) : List Token → Bytes → Bool
  | [], bytes => next bytes
  | token :: others, bytes => token.accepts (fun rest => acceptsAll next others rest) bytes

/-- Matches one of some patterns, and what follows by a test of the rest. -/
def acceptsSome (next : Bytes → Bool) : List (List Token) → Bytes → Bool
  | [], _ => false
  | branch :: others, bytes => acceptsAll next branch bytes || acceptsSome next others bytes

end

/-- Whether a path matches a pattern.  Two stars alone match every path. -/
def accepts (tokens : List Token) (path : Text) : Bool :=
  match tokens with
  | [.leadingDirectories] => true
  | _ => acceptsAll List.isEmpty tokens (bytesOf path)

end TidyLines.Ignore
