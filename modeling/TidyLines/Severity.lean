/-!
# Severities of findings

Severities are ordered: an information is less than a warning, and a warning less than an error.
-/

namespace TidyLines

/-- How serious a finding is. -/
inductive Severity where
  /-- A remark, which fails no run by default. -/
  | info
  | warning
  | error
  deriving DecidableEq, Repr, Inhabited

namespace Severity

/-- The place of a severity in the order. -/
def rank : Severity → Nat
  | info => 0
  | warning => 1
  | error => 2

instance : LE Severity := ⟨fun first second => first.rank ≤ second.rank⟩

instance (first second : Severity) : Decidable (first ≤ second) :=
  inferInstanceAs (Decidable (first.rank ≤ second.rank))

instance : Ord Severity := ⟨fun first second => compare first.rank second.rank⟩

/-- The name of a severity. -/
def name : Severity → String
  | info => "info"
  | warning => "warning"
  | error => "error"

/-- The severity whose name is exactly the given one. -/
def ofExactName? (given : String) : Option Severity :=
  [info, warning, error].find? (fun severity => severity.name == given)

@[simp] theorem ofExactName?_name (severity : Severity) :
    ofExactName? severity.name = some severity := by
  cases severity <;> decide

/-- A name that no severity has. -/
structure UnknownName where
  /-- The name in lower case. -/
  given : String
  deriving DecidableEq, Repr

/-- Says which name was not understood. -/
def UnknownName.message (unknown : UnknownName) : String :=
  "unknown severity '" ++ unknown.given ++ "'"

/-- The severity with a name, whatever the case of its ASCII letters; `warn` is short for
`warning`. -/
def ofName (given : String) : Except UnknownName Severity :=
  let lower := given.toLower
  if lower = "warn" then .ok warning
  else match ofExactName? lower with
    | some severity => .ok severity
    | none => .error ⟨lower⟩

end Severity
end TidyLines
