import TidyLines.Report
import TidyLines.Violation.Json

/-!
# Reports in JSON
-/

namespace TidyLines

namespace LintReport

/-- Writes a lint report. -/
def toJson (report : LintReport) : Json :=
  .record [
    ("violations", .array (report.violations.map Violation.toJson)),
    ("files_checked", .ofNat report.filesChecked)]

/-- Reads a lint report. -/
def ofJson? (json : Json) : Option LintReport := do
  match ← json.fields? ["violations", "files_checked"] 2 with
  | [violations, filesChecked] =>
    return {
      violations := ← Json.required (Json.list? Violation.ofJson?) violations
      filesChecked := ← Json.required Json.counter? filesChecked }
  | _ => none

end LintReport

namespace FileChange

/-- Writes a change. -/
def toJson (change : FileChange) : Json :=
  .record [("file", change.file.toJson), ("fixed", .ofNat change.fixed)]

/-- Reads a change. -/
def ofJson? (json : Json) : Option FileChange := do
  match ← json.fields? ["file", "fixed"] 2 with
  | [file, fixed] =>
    return {
      file := ← Json.required Path.ofJson? file
      fixed := ← Json.required Json.counter? fixed }
  | _ => none

end FileChange

namespace FormatReport

/-- Writes a format report. -/
def toJson (report : FormatReport) : Json :=
  .record [
    ("changed", .array (report.changed.map FileChange.toJson)),
    ("files_checked", .ofNat report.filesChecked)]

/-- Reads a format report. -/
def ofJson? (json : Json) : Option FormatReport := do
  match ← json.fields? ["changed", "files_checked"] 2 with
  | [changed, filesChecked] =>
    return {
      changed := ← Json.required (Json.list? FileChange.ofJson?) changed
      filesChecked := ← Json.required Json.counter? filesChecked }
  | _ => none

end FormatReport
end TidyLines
