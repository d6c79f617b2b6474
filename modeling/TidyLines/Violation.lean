import TidyLines.Path
import TidyLines.Severity

/-!
# Violations

A violation says which rule was broken, how serious that is and where, and may suggest a
replacement that mends it.  It has two written forms: one line (`Violation.display`) and a short
paragraph (`Violation.paragraph`).
-/

namespace TidyLines

/-- A place in a file. -/
structure Location where
  /-- The file, relative to the root of the project. -/
  file : Path
  /-- The number of the line, counted from one. -/
  line : Nat
  /-- The number of the character in the line, counted from one. -/
  column : Nat
  /-- The number of bytes before the place. -/
  offset : Nat := 0
  /-- The number of bytes that the place covers. -/
  length : Nat := 0
  deriving DecidableEq, Repr

/-- A text to write over a place. -/
structure Replacement where
  location : Location
  newText : String
  deriving DecidableEq, Repr

/-- Advice on how to mend a violation. -/
structure Suggestion where
  message : String
  replacement : Option Replacement := none
  deriving DecidableEq, Repr

/-- A broken rule. -/
structure Violation where
  code : String
  rule : String
  severity : Severity
  location : Location
  message : String
  suggestion : Option Suggestion := none
  deriving DecidableEq, Repr

/-- The file, line and column of a place. -/
def Location.position (location : Location) : String :=
  location.file.text ++ ":" ++ toString location.line ++ ":" ++ toString location.column

namespace Violation

/-- Whether a violation says how it can be mended without a reader. -/
def isFixable (violation : Violation) : Bool :=
  match violation.suggestion with
  | some suggestion => suggestion.replacement.isSome
  | none => false

/-- A violation on one line: where, how serious, which rule, what. -/
def display (violation : Violation) : String :=
  violation.location.position ++ ": " ++ violation.severity.name ++
    " [" ++ violation.code ++ "] " ++ violation.message

/-- A violation as a paragraph, with the severity written as the given text. -/
def paragraphWith (severity : String) (violation : Violation) : String :=
  violation.code ++ " " ++ violation.rule ++ " at " ++ violation.location.position ++ "\n" ++
    "  " ++ severity ++ ": " ++ violation.message ++ "\n" ++
    match violation.suggestion with
    | some suggestion => "  = help: " ++ suggestion.message ++ "\n"
    | none => ""

/-- A violation as a paragraph of two or three lines. -/
def paragraph (violation : Violation) : String :=
  paragraphWith violation.severity.name violation

/-- The title under which a violation is shown beside its source. -/
def headline (violation : Violation) : String :=
  "[" ++ violation.code ++ "] " ++ violation.message

/-- The advice that is shown below the source. -/
def help (violation : Violation) : Option String :=
  violation.suggestion.map Suggestion.message

end Violation
end TidyLines
