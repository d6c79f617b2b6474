import TidyLines.Rule
import TidyLines.Text.Whitespace

/-!
# The rule against trailing white space

A line must not end in white space.  The rule looks at raw lines, whatever they hold, reports the
run of white space at the end of each and mends a text by removing these runs.  A line of nothing
but white space becomes an empty line, and terminators stay as they are.
-/

namespace TidyLines

/-- The settings of the rule. -/
structure TrailingSpaces where
  whitespace : Whitespace := .ascii
  severity : Severity := .error
  deriving DecidableEq, Repr

namespace TrailingSpaces

/-- The code of the rule. -/
def code : String := "TL001"

/-- The name of the rule. -/
def name : String := "no-trailing-spaces"

/-- What the rule says about every line that it reports. -/
def message : String := "Trailing space(s)"

/-- What the rule suggests. -/
def advice : String := "Remove the trailing whitespace"

/-- The part of a content that stays. -/
def keep (settings : TrailingSpaces) (content : Text) : Text :=
  Text.dropTrailing settings.whitespace.contains content

/-- The place of the white space at the end of a line, if there is any. -/
def place? (settings : TrailingSpaces) (file : Path) (line : PlacedLine) : Option Location :=
  let kept := settings.keep line.content
  let length := Text.byteLength line.content - Text.byteLength kept
  if length = 0 then none
  else some {
    file
    line := line.number
    column := kept.length + 1
    offset := line.offset + Text.byteLength kept
    length }

/-- The violation that stands for a place. -/
def violationAt (settings : TrailingSpaces) (location : Location) : Violation where
  code
  rule := name
  severity := settings.severity
  location
  message
  suggestion := some { message := advice, replacement := some { location, newText := "" } }

/-- One violation for each line of a source that ends in white space. -/
def check (settings : TrailingSpaces) (source : Source) : List Violation :=
  source.lines.filterMap (fun line =>
    (settings.place? source.relativePath line).map settings.violationAt)

/-- The violations in a text that no file holds. -/
def scan (settings : TrailingSpaces) (text : Text) : List Violation :=
  settings.check (.ofText text)

/-- A line without the white space at its end. -/
def correctLine (settings : TrailingSpaces) (line : Line) : Line :=
  { line with content := settings.keep line.content }

/-- A text without the white space at the end of its lines. -/
def correct (settings : TrailingSpaces) (text : Text) : Text :=
  Line.join ((Line.split text).map settings.correctLine)

/-- The rule with these settings. -/
def rule (settings : TrailingSpaces) : Rule where
  name
  code
  description := "Forbids whitespace at the end of a line"
  severity := settings.severity
  fixable := true
  check := settings.check
  fix source := some (settings.correct source.text)

end TrailingSpaces
end TidyLines
