import TidyLines.Violation

/-!
# Reports of a run

Linting yields violations, formatting yields the changed files; both count the files that were
read.
-/

namespace TidyLines

/-- What a lint run found. -/
structure LintReport where
  violations : List Violation := []
  filesChecked : Nat := 0
  deriving DecidableEq, Repr

/-- The violations of a report by severity. -/
@[ext]
structure SeverityCounts where
  errors : Nat := 0
  warnings : Nat := 0
  infos : Nat := 0
  deriving DecidableEq, Repr

/-- The numbers with one more violation. -/
def SeverityCounts.tally (counts : SeverityCounts) (violation : Violation) : SeverityCounts :=
  match violation.severity with
  | .error => { counts with errors := counts.errors + 1 }
  | .warning => { counts with warnings := counts.warnings + 1 }
  | .info => { counts with infos := counts.infos + 1 }

namespace LintReport

/-- Whether some violation is at least this serious. -/
def hasViolationsAt (report : LintReport) (severity : Severity) : Bool :=
  report.violations.any (fun violation => severity ≤ violation.severity)

/-- Whether some violation is an error. -/
def hasErrors (report : LintReport) : Bool := report.hasViolationsAt .error

/-- The numbers of violations of each severity. -/
def counts (report : LintReport) : SeverityCounts :=
  report.violations.foldl SeverityCounts.tally {}

/-- A report with one more violation at its end. -/
def push (report : LintReport) (violation : Violation) : LintReport :=
  { report with violations := report.violations ++ [violation] }

/-- Two reports as one. -/
def extend (report other : LintReport) : LintReport where
  violations := report.violations ++ other.violations
  filesChecked := report.filesChecked + other.filesChecked

end LintReport

/-- A file that formatting changes. -/
structure FileChange where
  /-- The file, relative to the root of the project. -/
  file : Path
  fixed : Nat
  deriving DecidableEq, Repr

/-- What a format run changed. -/
structure FormatReport where
  /-- The changed files, in the order in which they were found. -/
  changed : List FileChange := []
  filesChecked : Nat := 0
  deriving DecidableEq, Repr

/-- The number of violations that all changes together mend. -/
def FormatReport.totalFixed (report : FormatReport) : Nat :=
  report.changed.foldr (fun change total => change.fixed + total) 0

end TidyLines
