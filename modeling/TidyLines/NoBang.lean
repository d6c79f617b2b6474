import TidyLines.Rule

/-!
# The rule against exclamation marks

A line must not end in an exclamation mark.  The rule mends a text by removing all exclamation marks
at the end of each line, and leaves the terminators as they are.
-/

namespace TidyLines.NoBang

def code : String := "T001"

def name : String := "no-bang"

/-- What the rule says about every line that it reports. -/
def message : String := "Line ends with '!'"

def isBang (character : Char) : Bool := character == '!'

/-- The violation that stands for a line which ends in an exclamation mark.  Its column is counted
in bytes, unlike those of the rule against trailing white space. -/
def violationAt (file : Path) (line : PlacedLine) : Violation where
  code
  rule := name
  severity := .error
  location := { file, line := line.number, column := Text.byteLength line.content }
  message

/-- One violation for each line of a source that ends in an exclamation mark. -/
def check (source : Source) : List Violation :=
  (source.lines.filter fun line => line.content.getLast?.any isBang).map
    (violationAt source.relativePath)

/-- A line without the exclamation marks at its end. -/
def correctLine (line : Line) : Line :=
  { line with content := Text.dropTrailing isBang line.content }

/-- A text without the exclamation marks at the end of its lines. -/
def correct (text : Text) : Text := Line.join ((Line.split text).map correctLine)

def rule : Rule where
  name
  code
  fixable := true
  check
  fix source := some (correct source.text)

end TidyLines.NoBang
