import TidyLines.Text.Line
import TidyLines.Text.Width
import TidyLines.Violation

/-!
# Violations beside their source

A snippet shows a violation under a title, with the line that it is on, the lines before and after
that one, and a mark below its place.

A snippet has rows of its own: a row ends at a line feed only, so a carriage return inside a row
does not break it.  Columns are those of a terminal.
-/

namespace TidyLines

namespace Snippet

/-- A part of a source that is shown in one row. -/
structure Row where
  /-- The number of bytes before the row. -/
  offset : Nat
  text : Text
  /-- What ends the row: a line feed, perhaps after a carriage return, or the end of the text. -/
  terminator : Terminator
  deriving DecidableEq, Repr

namespace Row

/-- The number of bytes of a row. -/
def size (row : Row) : Nat := Text.byteLength row.text + Text.byteLength row.terminator.text

/-- Whether a byte is in a row. -/
def holds (row : Row) (offset : Nat) : Bool :=
  row.offset ≤ offset && offset < row.offset + row.size

/-- Whether a row ends in a carriage return that nothing follows. -/
def endsInReturn (row : Row) : Bool :=
  row.terminator == .endOfText && row.text.getLast? == some '\r'

/-- The rows of a line and of the rows after it. -/
def addLine (line : PlacedLine) (others : List Row) : List Row :=
  match line.terminator with
  | .endOfText =>
    if line.content.isEmpty then [] else [⟨line.offset, line.content, .endOfText⟩]
  | .carriageReturn =>
    match others with
    | [] => [⟨line.offset, line.content ++ ['\r'], .endOfText⟩]
    | next :: below =>
      ⟨line.offset, line.content ++ '\r' :: next.text, next.terminator⟩ :: below
  | terminator => ⟨line.offset, line.content, terminator⟩ :: others

/-- The rows of lines. -/
def ofLines (lines : List PlacedLine) : List Row := lines.foldr addLine []

/-- Rows with the numbers that are shown beside them, from a first number on.  A row that ends in a
carriage return begins no line of its own and has the number of the row before it. -/
def number (first : Nat) (rows : List Row) : List (Nat × Row) :=
  rows.zipIdx.map fun (row, index) =>
    (if row.endsInReturn then first + index - 1 else first + index, row)

end Row

/-- The lines to show for a place: its own, the one before and the one after. -/
def window (location : Location) (lines : List PlacedLine) : List PlacedLine :=
  lines.filter fun line => line.number ≤ location.line + 1 && location.line ≤ line.number + 1

/-- The number of a byte in its line, counted from one. -/
def byteColumn (location : Location) (lines : List PlacedLine) : Nat :=
  match lines.find? (·.number == location.line) with
  | some line => location.offset - line.offset + 1
  | none => 1

/-- As many blanks as a number says. -/
def blanks (count : Nat) : String := "".pushn ' ' count

/-- The columns that a mark covers. -/
structure Mark where
  /-- The number of columns before the mark. -/
  start : Nat
  /-- The number of columns before the end of the mark. -/
  stop : Nat
  deriving DecidableEq, Repr

namespace Mark

/-- The mark for a place in a row, at least one column wide. -/
def ofPlace (location : Location) (row : Row) : Mark :=
  let start := Text.columns (row.text.takeBytes (location.offset - row.offset))
  let stop := Text.columns (row.text.takeBytes (location.offset + location.length - row.offset))
  { start, stop := max (start + 1) stop }

/-- The column from which the label of a mark hangs. -/
def middle (mark : Mark) : Nat := (mark.start + mark.stop) / 2

/-- The line of a mark. -/
def line (mark : Mark) : String :=
  let left := (blanks mark.start).pushn '─' (mark.middle - mark.start)
  (left ++ "┬").pushn '─' (mark.stop - mark.middle - 1)

/-- The line below a mark, with its label. -/
def label (mark : Mark) (text : String) : String := blanks mark.middle ++ "╰── " ++ text

end Mark

/-- The start of a line that shows no number. -/
def gutter (width : Nat) : String := blanks (width + 2) ++ "· "

/-- A row with its number and, if the violation is in it, the mark of the violation. -/
def rowLines (violation : Violation) (width : Nat) (number : Nat) (row : Row) : List String :=
  let numeral := toString number
  let shown := blanks (1 + width - numeral.length) ++ numeral ++ " │ " ++
    String.ofList (Text.expandTabs row.text)
  if row.holds violation.location.offset then
    let mark := Mark.ofPlace violation.location row
    [shown, gutter width ++ mark.line, gutter width ++ mark.label violation.rule]
  else [shown]

/-- The lines of the snippet of a violation in a source of the given lines. -/
def lines (violation : Violation) (source : List PlacedLine) : List String :=
  let location := violation.location
  let shown := window location source
  let first := (shown.head?.map (·.number)).getD 1
  let rows := Row.number first (Row.ofLines shown)
  let width := ((rows.getLast?.map fun row => toString row.1).getD "0").length
  let place := location.file.text ++ ":" ++ toString location.line ++ ":" ++
    toString (byteColumn location source)
  ["  × " ++ violation.headline, blanks (width + 2) ++ "╭─[" ++ place ++ "]"] ++
    rows.flatMap (fun (number, row) => rowLines violation width number row) ++
    [blanks (width + 2) ++ "╰────"] ++
    (violation.help.map ("  help: " ++ ·)).toList

end Snippet

/-- A violation beside a source of the given lines. -/
def Violation.snippet (violation : Violation) (source : List PlacedLine) : String :=
  String.join ((Snippet.lines violation source).map (· ++ "\n"))

end TidyLines
