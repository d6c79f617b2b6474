import TidyLines.Text.Line
import TidyLines.Violation

/-!
# Rules

A rule looks at one source at a time.  It reports violations and may know how to mend the text.
-/

namespace TidyLines

/-- A text to look at, with the path under which its violations are reported. -/
structure Source where
  /-- The path of the file, as it was found. -/
  path : Path
  relativePath : Path
  text : Text
  deriving DecidableEq, Repr

namespace Source

/-- A text that is reported under a name of its own. -/
def named (name : Path) (text : Text) : Source := ⟨name, name, text⟩

/-- A text that no file holds. -/
def ofText (text : Text) : Source := named .empty text

/-- The text of a file, reported relative to a root. -/
def ofFile (path : Path) (text : Text) (root : Path) : Source :=
  ⟨path, root.relativeTo path, text⟩

/-- The lines of a source with their places. -/
def lines (source : Source) : List PlacedLine := PlacedLine.split source.text

end Source

/-- A check of single sources. -/
structure Rule where
  /-- The name of the rule, in lower case with dashes. -/
  name : String
  code : String
  description : String := ""
  /-- The severity of the violations of the rule, when nothing else is configured. -/
  severity : Severity := .error
  /-- Whether the rule claims to mend what it reports. -/
  fixable : Bool := false
  /-- The violations in a source, in the order of their lines. -/
  check : Source → List Violation
  /-- The mended text of a source, for a rule that can mend. -/
  fix : Source → Option Text := fun _ => none

namespace Rule

/-- Whether a rule answers to a name: to its own name exactly, to its code in any ASCII case. -/
def answersTo (rule : Rule) (name : String) : Bool :=
  rule.name == name || rule.code.toLower == name.toLower

end Rule
end TidyLines
