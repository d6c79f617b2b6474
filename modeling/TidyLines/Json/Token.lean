import TidyLines.Json

/-!
# The tokens of JSON texts

`Token.ofText?` cuts a text into tokens, one character at a time.  A reader is between tokens,
inside a word, or inside a string literal; the two halves of a surrogate pair in a string are put
together when the second one arrives.
-/

namespace TidyLines.Json

/-- A token of a JSON text. -/
inductive Token where
  | openArray
  | closeArray
  | openObject
  | closeObject
  | colon
  | comma
  | leaf (value : Json)
  | quoted (text : Option Text)

namespace Token

/-- What follows the integer part of a number and its fraction. -/
def isExponent : Text → Bool
  | [] => true
  | mark :: rest =>
    let digits := match rest with
      | '+' :: digits => digits
      | '-' :: digits => digits
      | digits => digits
    (mark == 'e' || mark == 'E') && !digits.isEmpty && digits.all Char.isDigit

/-- What follows the integer part of a number. -/
def isFraction : Text → Bool
  | '.' :: digit :: rest => digit.isDigit && isExponent (rest.dropWhile Char.isDigit)
  | rest => isExponent rest

/-- A number without its sign. -/
def isUnsigned : Text → Bool
  | '0' :: rest => isFraction rest
  | digit :: rest => digit.isDigit && isFraction (rest.dropWhile Char.isDigit)
  | [] => false

/-- Whether a word is a number of JSON. -/
def isNumber : Text → Bool
  | '-' :: rest => isUnsigned rest
  | word => isUnsigned word

/-- The value that a word stands for. -/
def ofWord? (word : Text) : Option Token :=
  if word = "null".toList then some (.leaf .null)
  else if word = "true".toList then some (.leaf (.bool true))
  else if word = "false".toList then some (.leaf (.bool false))
  else if isNumber word then some (.leaf (.number word))
  else none

/-- A string literal that is being read. -/
structure Literal where
  /-- The characters so far, the last one first. -/
  reversed : Text := []
  sound : Bool := true
  /-- The first half of a surrogate pair that awaits the second one. -/
  half : Option Nat := none

namespace Literal

/-- The literal with one more character. -/
def add (literal : Literal) (character : Char) : Literal where
  reversed := character :: literal.reversed
  sound := literal.sound && literal.half.isNone

/-- Whether a code is the first half of a surrogate pair. -/
def isFirstHalf (code : Nat) : Bool := 0xD800 ≤ code && code ≤ 0xDBFF

/-- Whether a code is the second half of a surrogate pair. -/
def isSecondHalf (code : Nat) : Bool := 0xDC00 ≤ code && code ≤ 0xDFFF

/-- The literal with one more code of sixteen bits. -/
def addCode (literal : Literal) (code : Nat) : Literal :=
  match literal.half with
  | some first =>
    if isSecondHalf code then
      { reversed := Char.ofNat (0x10000 + (first - 0xD800) * 0x400 + (code - 0xDC00)) ::
          literal.reversed
        sound := literal.sound }
    else { literal with sound := false, half := if isFirstHalf code then some code else none }
  | none =>
    if isFirstHalf code then { literal with half := some code }
    else if isSecondHalf code then { literal with sound := false }
    else literal.add (Char.ofNat code)

/-- The text of a literal that has ended, if it stands for one. -/
def text? (literal : Literal) : Option Text :=
  if literal.sound && literal.half.isNone then some literal.reversed.reverse else none

end Literal

/-- What a reader is in the middle of. -/
inductive Place where
  /-- Nothing. -/
  | between
  /-- A word, the last character first. -/
  | word (reversed : Text)
  | inside (literal : Literal)
  | escape (literal : Literal)
  | code (literal : Literal) (missing : Nat) (value : Nat)

/-- A reader of tokens. -/
structure Reader where
  /-- The tokens read, the last one first. -/
  reversed : List Token := []
  place : Place := .between

/-- The character that a letter stands for after a backslash. -/
def escaped? : Char → Option Char
  | '"' => some '"'
  | '\\' => some '\\'
  | '/' => some '/'
  | 'b' => some '\x08'
  | 'f' => some '\x0c'
  | 'n' => some '\n'
  | 'r' => some '\r'
  | 't' => some '\t'
  | _ => none

/-- The token that a sign is. -/
def ofSign? : Char → Option Token
  | '[' => some .openArray
  | ']' => some .closeArray
  | '\x7b' => some .openObject
  | '\x7d' => some .closeObject
  | ':' => some .colon
  | ',' => some .comma
  | _ => none

/-- Whether a character may stand between tokens. -/
def isBlank (character : Char) : Bool :=
  character == ' ' || character == '\t' || character == '\n' || character == '\r'

/-- Whether a character belongs to a word. -/
def isWordCharacter (character : Char) : Bool :=
  character.isAlphanum || character == '+' || character == '-' || character == '.'

/-- Reads a character that starts something. -/
def Reader.start (tokens : List Token) (character : Char) : Option Reader :=
  if isBlank character then some ⟨tokens, .between⟩
  else if character = '"' then some ⟨tokens, .inside {}⟩
  else if isWordCharacter character then some ⟨tokens, .word [character]⟩
  else (ofSign? character).map fun token => ⟨token :: tokens, .between⟩

/-- Reads one character. -/
def Reader.step (reader : Reader) (character : Char) : Option Reader :=
  match reader.place with
  | .between => Reader.start reader.reversed character
  | .word word =>
    if isWordCharacter character then some { reader with place := .word (character :: word) }
    else do
      let token ← ofWord? word.reverse
      Reader.start (token :: reader.reversed) character
  | .inside literal =>
    if character = '"' then some ⟨.quoted literal.text? :: reader.reversed, .between⟩
    else if character = '\\' then some { reader with place := .escape literal }
    else if character.toNat < 0x20 then none
    else some { reader with place := .inside (literal.add character) }
  | .escape literal =>
    if character = 'u' then some { reader with place := .code literal 4 0 }
    else do
      let meant ← escaped? character
      some { reader with place := .inside (literal.add meant) }
  | .code literal missing value => do
    let digit ← Text.digitValue? character
    let value := 16 * value + digit
    if missing ≤ 1 then some { reader with place := .inside (literal.addCode value) }
    else some { reader with place := .code literal (missing - 1) value }

/-- The tokens of a reader that has read all. -/
def Reader.finish? (reader : Reader) : Option (List Token) :=
  match reader.place with
  | .between => some reader.reversed.reverse
  | .word word => (ofWord? word.reverse).map fun token => (token :: reader.reversed).reverse
  | _ => none

/-- The tokens of a JSON text. -/
def ofText? (text : Text) : Option (List Token) := do
  (← text.foldlM Reader.step {}).finish?

end Token
end TidyLines.Json
