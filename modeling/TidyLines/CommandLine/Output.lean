import TidyLines.CommandLine.Command
import TidyLines.Report.Json
import TidyLines.Json.Printer
import TidyLines.Rule
import TidyLines.Snippet
import TidyLines.Workspace

/-!
# What the commands print
-/

namespace TidyLines.CommandLine

/-- Lines, each with a line feed at its end. -/
def printLines (lines : List String) : String := String.join (lines.map (· ++ "\n"))

/-- The colours for the terminal. -/
inductive Colour where
  | red
  | yellow
  | blue
  | green
  deriving DecidableEq, Repr

namespace Colour

/-- The escape sequence that ends a colour. -/
def reset : String := "\x1b[0m"

/-- The escape sequence that begins a colour. -/
def start : Colour → String
  | red => "\x1b[31m"
  | yellow => "\x1b[33m"
  | blue => "\x1b[34m"
  | green => "\x1b[32m"

/-- A text in a colour. -/
def paint (colour : Colour) (text : String) : String := colour.start ++ text ++ reset

/-- The colour for a severity. -/
def ofSeverity : Severity → Colour
  | .error => red
  | .warning => yellow
  | .info => blue

/-- The colour for a report as a whole.  Remarks alone do not spoil it. -/
def ofCounts (counts : SeverityCounts) : Colour :=
  if 0 < counts.errors then red else if 0 < counts.warnings then yellow else green

end Colour

/-- Where the sources of violations can be read again. -/
inductive SourceAccess where
  | below (directory : Path)
  | text (content : Text)
  deriving DecidableEq, Repr

/-- The text of a source. -/
def SourceAccess.read? (access : SourceAccess) (workspace : Workspace) (file : Path) :
    Option Text :=
  match access with
  | .below directory =>
    (workspace.tree.readText workspace.directory (directory.join file)).toOption
  | .text content => some content

namespace Output

/-- The number of violations and files. -/
def summary (report : LintReport) : String :=
  let counts := report.counts
  (Colour.ofCounts counts).paint
    ("Found " ++ toString counts.errors ++ " error(s), " ++ toString counts.warnings ++
      " warning(s), " ++ toString counts.infos ++ " info(s) in " ++
      toString report.filesChecked ++ " file(s)")

/-- A violation as a paragraph with a coloured severity. -/
def paragraph (violation : Violation) : String :=
  violation.paragraphWith
    ((Colour.ofSeverity violation.severity).paint violation.severity.name)

/-- A violation beside its source, or alone if the source cannot be read again. -/
def snippet (access : SourceAccess) (workspace : Workspace) (violation : Violation) : String :=
  match access.read? workspace violation.location.file with
  | some text => violation.snippet (PlacedLine.split text)
  | none => violation.paragraph

/-- A report on violations. -/
def lint (format : OutputFormat) (access : SourceAccess) (workspace : Workspace)
    (report : LintReport) : String :=
  match format with
  | .text => printLines (report.violations.map paragraph ++ [summary report])
  | .json => printLines [String.ofList report.toJson.indented]
  | .compact => printLines (report.violations.map Violation.display)
  | .pretty => printLines (report.violations.map (snippet access workspace) ++ [summary report])

/-- A changed file. -/
def changeLine (change : FileChange) : String :=
  "  " ++ change.file.text ++ " (" ++ toString change.fixed ++ " violation(s))"

/-- The changed files and what they amount to. -/
def formatSummary (dryRun : Bool) (report : FormatReport) : List String :=
  if report.changed.isEmpty then
    ["No trailing whitespace found in " ++ toString report.filesChecked ++ " file(s)."]
  else
    report.changed.map changeLine ++
      [(if dryRun then "Would fix " else "Fixed ") ++ toString report.totalFixed ++
        " violation(s) in " ++ toString report.changed.length ++ " of " ++
        toString report.filesChecked ++ " file(s)"]

/-- A report on changed files. -/
def format (format : OutputFormat) (dryRun : Bool) (report : FormatReport) : String :=
  match format with
  | .json => printLines [String.ofList report.toJson.indented]
  | .compact => printLines (report.changed.map (·.file.text))
  | _ => printLines (formatSummary dryRun report)

/-- A text with blanks behind it up to a width. -/
def pad (width : Nat) (text : String) : String := text.pushn ' ' (width - text.length)

/-- A row of the table of rules. -/
def ruleRow (code name fixable description : String) : String :=
  pad 10 code ++ " " ++ pad 25 name ++ " " ++ pad 8 fixable ++ " " ++ description

/-- The row for a rule. -/
def ruleLine (rule : Rule) : String :=
  ruleRow rule.code rule.name (if rule.fixable then "yes" else "no") rule.description

/-- The table of rules. -/
def rules (rules : List Rule) : String :=
  printLines (
    ["Available rules:", "", ruleRow "Code" "Name" "Fixable" "Description",
      "".pushn '-' 80] ++
    rules.map ruleLine ++
    ["", "Use --rules to filter specific rules, e.g.:",
      "  trimlint check --rules no-trailing-spaces",
      "  trimlint format --rules TL001"])

/-- What to do after a configuration was written. -/
def created (file : Path) : String :=
  printLines ["Created " ++ file.text, "", "Next steps:",
    "  1. Edit " ++ file.text ++ " to configure rules",
    "  2. Run: trimlint check"]

end Output
end TidyLines.CommandLine
