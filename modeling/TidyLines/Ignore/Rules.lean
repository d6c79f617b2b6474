import TidyLines.Ignore.Pattern
import TidyLines.Text.Whitespace

/-!
# The rules of ignore files

Each line of an ignore file is a pattern, a comment or empty.  An exclamation mark makes a pattern
keep what it matches, a slash at the end makes it match directories only, and a pattern without any
other slash matches at every depth.  Of the rules that match, the last one decides.
-/

namespace TidyLines.Ignore

/-- What an ignore file says about a path. -/
inductive Verdict where
  | ignored
  /-- The path is kept, whatever weaker files say. -/
  | kept
  deriving DecidableEq, Repr

/-- One line of an ignore file. -/
structure Rule where
  pattern : List Token
  verdict : Verdict
  directoriesOnly : Bool

/-- A pattern that cannot be read, with its line. -/
structure BadLine where
  /-- The line without the blanks at its end. -/
  pattern : Text
  defect : Defect
  deriving DecidableEq, Repr

/-- Whether a text ends with another one. -/
def endsWith (ending text : Text) : Bool := ending.isSuffixOf text

/-- A line without the blanks at its end, unless the last one is escaped. -/
def trimLine (line : Text) : Text :=
  if endsWith "\\ ".toList line then line
  else Text.dropTrailing Whitespace.isUnicodeSpace line

/-- The marks at the start of a line: whether it keeps what it matches, whether it is bound to the
directory of its file, and the rest. -/
def splitMarks (line : Text) : Bool × Bool × Text :=
  match line with
  | '\\' :: '!' :: rest => (false, false, '!' :: rest)
  | '\\' :: '#' :: rest => (false, false, '#' :: rest)
  | '!' :: '/' :: rest => (true, true, rest)
  | '!' :: rest => (true, false, rest)
  | '/' :: rest => (false, true, rest)
  | rest => (false, false, rest)

/-- A line without a slash at its end, and whether it had one. -/
def splitSlash (line : Text) : Bool × Text :=
  if endsWith ['\\', '/'] line then (true, line.dropLast.dropLast)
  else if endsWith ['/'] line then (true, line.dropLast)
  else (false, line)

/-- The pattern of the whole path for what a line says. -/
def wholePattern (bound : Bool) (line : Text) : Text :=
  let deep :=
    if bound || line.contains '/' || line = "**".toList then line
    else "**/".toList ++ line
  if endsWith "/**".toList deep then deep ++ "/*".toList else deep

/-- The rule on a line, if there is one. -/
def Rule.ofLine? (line : Text) : Except BadLine (Option Rule) :=
  let line := if line.head? = some '#' then [] else trimLine line
  if line.isEmpty then .ok none
  else
    let (keeps, bound, rest) := splitMarks line
    let (directoriesOnly, rest) := splitSlash rest
    match parsePattern (wholePattern bound rest) with
    | .ok pattern =>
      .ok (some { pattern, verdict := if keeps then .kept else .ignored, directoriesOnly })
    | .error defect => .error ⟨line, defect⟩

/-- What a rule says about a path, which may be a directory. -/
def Rule.judge? (rule : Rule) (path : Text) (isDirectory : Bool) : Option Verdict :=
  if (isDirectory || !rule.directoriesOnly) && accepts rule.pattern path then some rule.verdict
  else none

/-- What rules say about a path: what the last one says that says anything.  The rules are listed
from the last one to the first. -/
def judge? (reversed : List Rule) (path : Text) (isDirectory : Bool) : Option Verdict :=
  reversed.findSome? fun rule => rule.judge? path isDirectory

/-- What is wrong with a line of an ignore file. -/
inductive Complaint where
  | unreadable (number : Nat)
  | badLine (number : Nat) (line : BadLine)
  deriving DecidableEq, Repr

/-- Says what is wrong with a line of an ignore file. -/
def Complaint.message : Complaint → String
  | unreadable number =>
    "line " ++ toString number ++ ": stream did not contain valid UTF-8"
  | badLine number line =>
    "line " ++ toString number ++ ": error parsing glob '" ++ String.ofList line.pattern ++ "': " ++
      line.defect.message

/-- The contents of an ignore file. -/
structure Rules where
  /-- The rules, the last one first. -/
  reversed : List Rule := []
  /-- What is wrong, in the order of the lines. -/
  complaints : List Complaint := []

/-- The lines of a file, without their line feeds and the carriage returns before them. -/
def linesOf (bytes : ByteArray) : List ByteArray :=
  let parts := bytes.toList.splitOn 0x0A
  let ended := parts.dropLast.map fun line =>
    if line.getLast? = some 0x0D then line.dropLast else line
  let lines := match parts.getLast? with
    | some [] => ended
    | some last => ended ++ [last]
    | none => ended
  lines.map fun line => ⟨line.toArray⟩

/-- A text without byte order marks at its start. -/
def dropMarks (line : Text) : Text := line.dropWhile (· == '\uFEFF')

/-- Adds the rules on numbered lines, up to one that is no text. -/
def Rules.addLines (rules : Rules) (number : Nat) : List ByteArray → Rules
  | [] => rules
  | line :: others =>
    match Text.decode? line with
    | none => { rules with complaints := rules.complaints ++ [.unreadable number] }
    | some text =>
      match Rule.ofLine? (if number = 1 then dropMarks text else text) with
      | .ok none => addLines rules (number + 1) others
      | .ok (some rule) =>
        addLines { rules with reversed := rule :: rules.reversed } (number + 1) others
      | .error bad =>
        addLines { rules with complaints := rules.complaints ++ [.badLine number bad] }
          (number + 1) others

/-- The contents of an ignore file.  A line that is no text is passed over in silence, when nothing
else is wrong. -/
def Rules.ofBytes (bytes : ByteArray) : Rules :=
  let rules := addLines {} 1 (linesOf bytes)
  match rules.complaints with
  | [.unreadable _] => { rules with complaints := [] }
  | _ => rules

end TidyLines.Ignore
