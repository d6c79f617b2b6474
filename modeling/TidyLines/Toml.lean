import TidyLines.Text

/-!
# Values of TOML documents

The numbers of floats and the moments of date-times are not kept: nothing in a configuration uses
them, beyond the fact that they are there.
-/

namespace TidyLines.Toml

/-- How a table was written. -/
inductive TableForm where
  | inline
  | block
  deriving DecidableEq, Repr

/-- A value of a TOML document. -/
inductive Value where
  | string (text : String)
  | integer (number : Int)
  | float
  | boolean (value : Bool)
  | datetime
  | array (items : List Value)
  /-- A table with its keys in order. -/
  | table (form : TableForm) (entries : List (String × Value))
  deriving Inhabited, Repr

/-- The name of the type of a value. -/
def Value.typeName : Value → String
  | string _ => "string"
  | integer _ => "integer"
  | float => "float"
  | boolean _ => "boolean"
  | datetime => "datetime"
  | array _ => "array"
  | table _ _ => "table"

end TidyLines.Toml
