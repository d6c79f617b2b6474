import TidyLines.Text.Decimal
import TidyLines.Toml.Scanner

/-!
# Quoted strings of TOML

There are basic strings, in which a backslash escapes, and literal ones, and each kind also with
three quotes, where the string may go over several lines.
-/

namespace TidyLines.Toml.Quoted

/-- The character with a code written in the given number of hexadecimal digits. -/
def character? (digits : Text) : Option Char := do
  let code ← Text.natOfBase? 16 digits
  if code.isValidChar then some (Char.ofNat code) else none

/-- The character that a letter stands for after a backslash. -/
def escaped? : Char → Option Char
  | 'b' => some '\x08'
  | 't' => some '\t'
  | 'n' => some '\n'
  | 'f' => some '\x0c'
  | 'r' => some '\r'
  | '"' => some '"'
  | '\\' => some '\\'
  | _ => none

/-- Takes an escape after its backslash. -/
def escape? : Text → Option (Char × Text)
  | 'u' :: rest => do return (← character? (← digits? 4 rest), rest.drop 4)
  | 'U' :: rest => do return (← character? (← digits? 8 rest), rest.drop 8)
  | letter :: rest => do return (← escaped? letter, rest)
  | [] => none
where
  /-- The given number of characters from the front of a text. -/
  digits? (count : Nat) (rest : Text) : Option Text :=
    if rest.length < count then none else some (rest.take count)

theorem length_of_escape? {text rest : Text} {character : Char}
    (read : escape? text = some (character, rest)) : rest.length < text.length := by
  unfold escape? at read
  split at read
  · simp only [Option.bind_eq_bind, Option.bind_eq_some_iff, Option.pure_def,
      Option.some.injEq, Prod.mk.injEq] at read
    obtain ⟨_, _, _, _, _, rfl⟩ := read
    simp only [List.length_drop, List.length_cons]
    omega
  · simp only [Option.bind_eq_bind, Option.bind_eq_some_iff, Option.pure_def,
      Option.some.injEq, Prod.mk.injEq] at read
    obtain ⟨_, _, _, _, _, rfl⟩ := read
    simp only [List.length_drop, List.length_cons]
    omega
  · simp only [Option.bind_eq_bind, Option.bind_eq_some_iff, Option.pure_def,
      Option.some.injEq, Prod.mk.injEq] at read
    obtain ⟨_, _, _, rfl⟩ := read
    simp
  · simp at read

/-- Takes a basic string after its first quote; the text so far is reversed. -/
def basicFrom (reversed rest : Text) : Option (Text × Text) :=
  match rest with
  | [] => none
  | '"' :: rest => some (reversed.reverse, rest)
  | '\\' :: rest =>
    match read : escape? rest with
    | none => none
    | some (character, after) =>
      have := length_of_escape? read
      basicFrom (character :: reversed) after
  | character :: rest =>
    if Scanner.isPrintable character then basicFrom (character :: reversed) rest else none
termination_by rest.length

/-- Takes a literal string after its first quote. -/
def literalFrom (reversed : Text) : Text → Option (Text × Text)
  | [] => none
  | '\'' :: rest => some (reversed.reverse, rest)
  | character :: rest =>
    if Scanner.isPrintable character then literalFrom (character :: reversed) rest else none

/-- What a reader of a long basic string is in the middle of. -/
inductive Mode where
  | text
  | toLineEnd
  /-- Blanks and line ends that a backslash at the end of a line removes. -/
  | skipping
  deriving DecidableEq

/-- Takes a long basic string after its first three quotes.  Up to two quotes may stand before the
last three. -/
def longBasicFrom (mode : Mode) (reversed rest : Text) : Option (Text × Text) :=
  match mode, rest with
  | _, [] => none
  | .toLineEnd, character :: rest =>
    if Scanner.isBlank character then longBasicFrom .toLineEnd reversed rest
    else if character = '\n' then longBasicFrom .skipping reversed rest
    else match character, rest with
      | '\r', '\n' :: rest => longBasicFrom .skipping reversed rest
      | _, _ => none
  | mode, '\r' :: '\n' :: rest =>
    if mode = .skipping then longBasicFrom .skipping reversed rest
    else longBasicFrom .text ('\n' :: reversed) rest
  | _, '"' :: '"' :: '"' :: '"' :: '"' :: rest => some (('"' :: '"' :: reversed).reverse, rest)
  | _, '"' :: '"' :: '"' :: '"' :: rest => some (('"' :: reversed).reverse, rest)
  | _, '"' :: '"' :: '"' :: rest => some (reversed.reverse, rest)
  | _, '\\' :: rest =>
    match read : escape? rest with
    | some (character, after) =>
      have := length_of_escape? read
      longBasicFrom .text (character :: reversed) after
    | none => longBasicFrom .toLineEnd reversed rest
  | mode, character :: rest =>
    if mode = .skipping && (Scanner.isBlank character || character == '\n') then
      longBasicFrom .skipping reversed rest
    else if Scanner.isPrintable character || character == '\n' then
      longBasicFrom .text (character :: reversed) rest
    else none
termination_by rest.length

/-- Takes a long literal string after its first three quotes. -/
def longLiteralFrom (reversed rest : Text) : Option (Text × Text) :=
  match rest with
  | [] => none
  | '\r' :: '\n' :: rest => longLiteralFrom ('\n' :: reversed) rest
  | '\'' :: '\'' :: '\'' :: '\'' :: '\'' :: rest =>
    some (('\'' :: '\'' :: reversed).reverse, rest)
  | '\'' :: '\'' :: '\'' :: '\'' :: rest => some (('\'' :: reversed).reverse, rest)
  | '\'' :: '\'' :: '\'' :: rest => some (reversed.reverse, rest)
  | character :: rest =>
    if Scanner.isPrintable character || character == '\n' then
      longLiteralFrom (character :: reversed) rest
    else none
termination_by rest.length

/-- A text without a line end at its start. -/
def dropLineEnd : Text → Text
  | '\n' :: rest => rest
  | '\r' :: '\n' :: rest => rest
  | rest => rest

/-- Takes a string of any kind. -/
def value : Scanner Text := fun rest =>
  match rest with
  | '"' :: '"' :: '"' :: rest => longBasicFrom .text [] (dropLineEnd rest)
  | '"' :: rest => basicFrom [] rest
  | '\'' :: '\'' :: '\'' :: rest => longLiteralFrom [] (dropLineEnd rest)
  | '\'' :: rest => literalFrom [] rest
  | _ => none

/-- Takes a string that stays on one line. -/
def key : Scanner Text := fun rest =>
  match rest with
  | '"' :: rest => basicFrom [] rest
  | '\'' :: rest => literalFrom [] rest
  | _ => none

end TidyLines.Toml.Quoted
