import TidyLines.Json

/-!
# JSON values as texts

A value has a compact text, without any blanks, and an indented one, with two blanks for each
level.
-/

namespace TidyLines.Json

/-- A character inside a string literal. -/
def escape (character : Char) : Text :=
  match character with
  | '"' => "\\\"".toList
  | '\\' => "\\\\".toList
  | '\x08' => "\\b".toList
  | '\x0c' => "\\f".toList
  | '\n' => "\\n".toList
  | '\r' => "\\r".toList
  | '\t' => "\\t".toList
  | _ =>
    if character.toNat < 0x20 then
      "\\u00".toList ++ [Text.hexDigit (character.toNat / 16), Text.hexDigit (character.toNat % 16)]
    else [character]

/-- The string literal of a text. -/
def quote (text : Text) : Text := '"' :: (text.flatMap escape ++ ['"'])

/-- The string literal of a text, or an empty one. -/
def quoteOptional (text : Option Text) : Text := quote (text.getD [])

/-- Texts with commas between them. -/
def separate (separator : Text) (parts : List Text) : Text := separator.intercalate parts

/-- The line break and blanks that start a line at some level. -/
def newLine (level : Nat) : Text := '\n' :: List.replicate (2 * level) ' '

mutual

/-- The text of a value without blanks. -/
def compact : Json → Text
  | .null => "null".toList
  | .bool value => (if value then "true" else "false").toList
  | .number numeral => numeral
  | .string text => quoteOptional text
  | .array items => '[' :: (separate [','] (compactItems items) ++ [']'])
  | .object members => '\x7b' :: (separate [','] (compactMembers members) ++ ['\x7d'])

/-- The texts of the items of an array. -/
def compactItems : List Json → List Text
  | [] => []
  | item :: others => compact item :: compactItems others

/-- The texts of the members of an object. -/
def compactMembers : List (Option Text × Json) → List Text
  | [] => []
  | (name, value) :: others =>
    (quoteOptional name ++ ':' :: compact value) :: compactMembers others

end

/-- Parts between brackets, each on a line of its own. -/
def block (opening closing : Char) (level : Nat) (parts : List Text) : Text :=
  if parts.isEmpty then [opening, closing]
  else
    opening :: (newLine (level + 1) ++ separate (',' :: newLine (level + 1)) parts ++
      newLine level ++ [closing])

mutual

/-- The indented text of a value at some level. -/
def indentedAt (level : Nat) : Json → Text
  | .null => "null".toList
  | .bool value => (if value then "true" else "false").toList
  | .number numeral => numeral
  | .string text => quoteOptional text
  | .array items => block '[' ']' level (indentedItems (level + 1) items)
  | .object members => block '\x7b' '\x7d' level (indentedMembers (level + 1) members)

/-- The indented texts of the items of an array. -/
def indentedItems (level : Nat) : List Json → List Text
  | [] => []
  | item :: others => indentedAt level item :: indentedItems level others

/-- The indented texts of the members of an object. -/
def indentedMembers (level : Nat) : List (Option Text × Json) → List Text
  | [] => []
  | (name, value) :: others =>
    (quoteOptional name ++ ':' :: ' ' :: indentedAt level value) :: indentedMembers level others

end

/-- The indented text of a value. -/
def indented (value : Json) : Text := indentedAt 0 value

end TidyLines.Json
