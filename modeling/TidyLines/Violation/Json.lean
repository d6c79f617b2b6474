import TidyLines.Json.Record
import TidyLines.Violation

/-!
# Violations in JSON

Each type has `toJson` and `ofJson?`.  A violation without a suggestion is written without the
field, and read with or without it.
-/

namespace TidyLines

/-- A path is written as its spelling. -/
def Path.toJson (path : Path) : Json := .ofString path.text

/-- Reads a path. -/
def Path.ofJson? (json : Json) : Option Path := json.string?.map Path.ofString

/-- A severity is written as its name. -/
def Severity.toJson (severity : Severity) : Json := .ofString severity.name

/-- Reads a severity from its name, or from an object that has the name with `null`. -/
def Severity.ofJson? : Json → Option Severity
  | .string (some name) => ofExactName? (String.ofList name)
  | .object [(some name, .null)] => ofExactName? (String.ofList name)
  | _ => none

namespace Location

/-- Writes a place. -/
def toJson (location : Location) : Json :=
  .record [
    ("file", location.file.toJson),
    ("line", .ofNat location.line),
    ("column", .ofNat location.column),
    ("offset", .ofNat location.offset),
    ("length", .ofNat location.length)]

/-- Reads a place. -/
def ofJson? (json : Json) : Option Location := do
  match ← json.fields? ["file", "line", "column", "offset", "length"] 5 with
  | [file, line, column, offset, length] =>
    return {
      file := ← Json.required Path.ofJson? file
      line := ← Json.required Json.counter? line
      column := ← Json.required Json.counter? column
      offset := ← Json.required Json.counter? offset
      length := ← Json.required Json.counter? length }
  | _ => none

end Location

namespace Replacement

/-- Writes a replacement. -/
def toJson (replacement : Replacement) : Json :=
  .record [
    ("location", replacement.location.toJson),
    ("new_text", .ofString replacement.newText)]

/-- Reads a replacement. -/
def ofJson? (json : Json) : Option Replacement := do
  match ← json.fields? ["location", "new_text"] 2 with
  | [location, newText] =>
    return {
      location := ← Json.required Location.ofJson? location
      newText := ← Json.required Json.string? newText }
  | _ => none

end Replacement

namespace Suggestion

/-- Writes a suggestion; a missing replacement is `null`. -/
def toJson (suggestion : Suggestion) : Json :=
  .record [
    ("message", .ofString suggestion.message),
    ("replacement", .optional (suggestion.replacement.map Replacement.toJson))]

/-- Reads a suggestion. -/
def ofJson? (json : Json) : Option Suggestion := do
  match ← json.fields? ["message", "replacement"] 2 with
  | [message, replacement] =>
    return {
      message := ← Json.required Json.string? message
      replacement := ← Json.nullable Replacement.ofJson? replacement }
  | _ => none

end Suggestion

namespace Violation

/-- The field of the suggestion, if there is one. -/
def suggestionField (violation : Violation) : List (String × Json) :=
  match violation.suggestion with
  | some suggestion => [("suggestion", suggestion.toJson)]
  | none => []

/-- Writes a violation. -/
def toJson (violation : Violation) : Json :=
  .record ([
    ("code", .ofString violation.code),
    ("rule", .ofString violation.rule),
    ("severity", violation.severity.toJson),
    ("location", violation.location.toJson),
    ("message", .ofString violation.message)] ++ violation.suggestionField)

/-- Reads a violation. -/
def ofJson? (json : Json) : Option Violation := do
  match ← json.fields? ["code", "rule", "severity", "location", "message", "suggestion"] 5 with
  | [code, rule, severity, location, message, suggestion] =>
    return {
      code := ← Json.required Json.string? code
      rule := ← Json.required Json.string? rule
      severity := ← Json.required Severity.ofJson? severity
      location := ← Json.required Location.ofJson? location
      message := ← Json.required Json.string? message
      suggestion := ← Json.nullable Suggestion.ofJson? suggestion }
  | _ => none

end Violation
end TidyLines
