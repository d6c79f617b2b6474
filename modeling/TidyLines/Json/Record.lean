import TidyLines.Json

/-!
# Records in JSON

A record with known fields is written as an object.  It is read from an object, in which unknown
names are passed over and no known name comes twice, or from an array, in which the fields stand in
their order.
-/

namespace TidyLines.Json

/-- The values under a name in an object. -/
def valuesOf (name : String) (members : List (Option Text × Json)) : List Json :=
  (members.filter fun member => member.1 == some name.toList).map Prod.snd

/-- The field with a name, unless the name comes twice. -/
def field? (members : List (Option Text × Json)) (name : String) : Option (Option Json) :=
  match valuesOf name members with
  | [] => some none
  | [value] => some (some value)
  | _ => none

/-- The fields of a record, each present or not.  An array must have at least the given number of
items. -/
def fields? (names : List String) (least : Nat) : Json → Option (List (Option Json))
  | .object members =>
    if members.all (fun member => member.1.isSome) then names.mapM (field? members) else none
  | .array items =>
    if least ≤ items.length && items.length ≤ names.length then
      some (items.map some ++ List.replicate (names.length - items.length) none)
    else none
  | _ => none

/-- Reads a field that must be present. -/
def required {Value : Type} (read : Json → Option Value) (field : Option Json) : Option Value :=
  field.bind read

/-- Reads a field that may be missing or `null`. -/
def nullable {Value : Type} (read : Json → Option Value) : Option Json → Option (Option Value)
  | none => some none
  | some .null => some none
  | some value => (read value).map some

/-- Reads a string. -/
def string? : Json → Option String
  | .string (some text) => some (String.ofList text)
  | _ => none

/-- The least number that no counter of 64 bits holds. -/
def counterBound : Nat := 0x10000000000000000

/-- Reads a natural number that a counter of 64 bits holds, spelled in digits only. -/
def counter? : Json → Option Nat
  | .number numeral => do
    let number ← Text.nat? numeral
    if number < counterBound then some number else none
  | _ => none

/-- Reads an array. -/
def list? {Value : Type} (read : Json → Option Value) : Json → Option (List Value)
  | .array items => items.mapM read
  | _ => none

end TidyLines.Json
