import TidyLines.Text.Decimal

/-!
# JSON values

A string literal of JSON may hold half of a surrogate pair, which stands for no text.  Such a
literal is allowed where nobody looks at it, so strings and names are optional texts.
-/

namespace TidyLines

/-- A JSON value. -/
inductive Json where
  | null
  | bool (value : Bool)
  /-- A number, as it is spelled. -/
  | number (numeral : Text)
  /-- A string, or nothing where the literal stands for no text. -/
  | string (text : Option Text)
  | array (items : List Json)
  /-- An object, with its members in order and repeated names kept. -/
  | object (members : List (Option Text × Json))
  deriving Inhabited

namespace Json

/-- A string that is a text. -/
def ofText (text : Text) : Json := .string (some text)

/-- A string that is a text. -/
def ofString (text : String) : Json := ofText text.toList

/-- A natural number. -/
def ofNat (number : Nat) : Json := .number (Text.ofNat number)

/-- An object with the given names and values. -/
def record (fields : List (String × Json)) : Json :=
  .object (fields.map fun field => (some field.1.toList, field.2))

/-- A value, or `null` for none. -/
def optional (value : Option Json) : Json := value.getD .null

end Json
end TidyLines
