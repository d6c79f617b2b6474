import TidyLines.Text

/-!
# Patterns of paths

A question mark stands for one character, a star for any run of characters, slashes included, and
two stars, alone between slashes, for any number of directories.  Brackets hold a choice of
characters, or after an exclamation mark the characters that are not meant.  All other characters,
braces too, stand for themselves.
-/

namespace TidyLines.Glob

/-- Characters between brackets. -/
inductive Choice where
  | single (character : Char)
  | range (first last : Char)
  deriving DecidableEq, Repr

/-- Whether a choice has a character. -/
def Choice.has (choice : Choice) (character : Char) : Bool :=
  match choice with
  | single member => character == member
  | range first last => first ≤ character && character ≤ last

/-- One part of a pattern. -/
inductive Token where
  | literal (character : Char)
  | anyCharacter
  | anyRun
  | anyDirectories
  /-- A character of some choices, or of none of them. -/
  | oneOf (negated : Bool) (choices : List Choice)
  deriving DecidableEq, Repr

/-- What is wrong with a pattern. -/
inductive Defect where
  /-- There are more than two stars in a row. -/
  | tooManyStars
  /-- Two stars stand next to something that is no slash. -/
  | starsNotAlone
  /-- A bracket is not closed, or closed at once. -/
  | badChoice
  deriving DecidableEq, Repr

/-- Where a pattern is wrong, counted in characters. -/
structure Error where
  /-- The number of characters before the place. -/
  position : Nat
  defect : Defect
  deriving DecidableEq, Repr

/-- Says what is wrong with a pattern. -/
def Defect.message : Defect → String
  | tooManyStars => "wildcards are either regular \x60*\x60 or recursive \x60**\x60"
  | starsNotAlone => "recursive wildcards must form a single path component"
  | badChoice => "invalid range pattern"

/-- Says where and how a pattern is wrong. -/
def Error.message (error : Error) : String :=
  "Pattern syntax error near position " ++ toString error.position ++ ": " ++ error.defect.message

/-- The choices between brackets.  A dash between two characters makes a range. -/
def choicesOf : Text → List Choice
  | first :: '-' :: last :: rest => .range first last :: choicesOf rest
  | character :: rest => .single character :: choicesOf rest
  | [] => []

/-- What a reader of a pattern is in the middle of. -/
inductive Place where
  /-- Nothing. -/
  | between
  | star
  | stars
  | opened
  | negated
  /-- The characters between brackets, the last one first. -/
  | members (negated : Bool) (reversed : Text)

/-- A reader of a pattern. -/
structure Reader where
  /-- The parts so far, the last one first. -/
  reversed : List Token := []
  /-- The number of characters read. -/
  position : Nat := 0
  place : Place := .between
  /-- The number of characters before the stars or the bracket. -/
  start : Nat := 0
  /-- The character before the stars. -/
  before : Option Char := none
  last : Option Char := none

namespace Reader

/-- Adds a part. -/
def add (reader : Reader) (token : Token) : Reader :=
  { reader with reversed := token :: reader.reversed, place := .between }

/-- Adds any number of directories, unless this has just been added after something else. -/
def addDirectories (reader : Reader) : Reader :=
  match reader.reversed with
  | .anyDirectories :: _ :: _ => { reader with place := .between }
  | _ => reader.add .anyDirectories

/-- Whether two stars have nothing or a slash before them. -/
def startsAlone (reader : Reader) : Bool :=
  match reader.before with
  | none => true
  | some character => character == '/'

/-- Moves to what a character starts. -/
def enter (reader : Reader) (place : Place) : Reader :=
  { reader with place, start := reader.position, before := reader.last }

/-- Reads a character that starts a part. -/
def begin (reader : Reader) (character : Char) : Reader :=
  match character with
  | '?' => reader.add .anyCharacter
  | '*' => reader.enter .star
  | '[' => reader.enter .opened
  | _ => reader.add (.literal character)

/-- Adds the choices between brackets. -/
def addChoices (reader : Reader) (negated : Bool) (reversed : Text) : Reader :=
  reader.add (.oneOf negated (choicesOf reversed.reverse))

/-- Reads a character, without counting it. -/
def take (reader : Reader) (character : Char) : Except Error Reader :=
  match reader.place with
  | .between => .ok (reader.begin character)
  | .star =>
    if character = '*' then .ok { reader with place := .stars }
    else .ok ((reader.add .anyRun).begin character)
  | .stars =>
    if character = '*' then .error ⟨reader.position, .tooManyStars⟩
    else if !reader.startsAlone then .error ⟨reader.start - 1, .starsNotAlone⟩
    else if character = '/' then .ok reader.addDirectories
    else .error ⟨reader.position, .starsNotAlone⟩
  | .opened =>
    if character = '!' then .ok { reader with place := .negated }
    else .ok { reader with place := .members false [character] }
  | .negated => .ok { reader with place := .members true [character] }
  | .members negated reversed =>
    if character = ']' then .ok (reader.addChoices negated reversed)
    else .ok { reader with place := .members negated (character :: reversed) }

/-- Reads a character. -/
def step (reader : Reader) (character : Char) : Except Error Reader := do
  let reader ← reader.take character
  return { reader with position := reader.position + 1, last := some character }

/-- The parts of a pattern that has ended. -/
def finish (reader : Reader) : Except Error (List Token) :=
  match reader.place with
  | .between => .ok reader.reversed.reverse
  | .star => .ok (reader.add .anyRun).reversed.reverse
  | .stars =>
    if reader.startsAlone then .ok reader.addDirectories.reversed.reverse
    else .error ⟨reader.start - 1, .starsNotAlone⟩
  | _ => .error ⟨reader.start, .badChoice⟩

end Reader

/-- The parts of a pattern. -/
def parse (pattern : Text) : Except Error (List Token) := do
  (← pattern.foldlM Reader.step {}).finish

/-- Whether a part that stands for one character admits a character. -/
def Token.admits (token : Token) (character : Char) : Bool :=
  match token with
  | literal expected => character == expected
  | anyCharacter => true
  | oneOf negated choices => choices.any (·.has character) != negated
  | anyRun => false
  | anyDirectories => false

/-- How an attempt to match ends. -/
inductive Outcome where
  | matched
  /-- The path does not match this way. -/
  | mismatch
  /-- The path ended too early, so that taking more of it before does not help. -/
  | exhausted
  deriving DecidableEq, Repr

/-- Tries to go on after each place where a run of characters may end, the end of the path
included. -/
def tryAfter (mayEnd : Char → Bool) (next : Text → Outcome) : Text → Outcome
  | [] => next []
  | character :: rest =>
    if mayEnd character then
      match next rest with
      | .mismatch => tryAfter mayEnd next rest
      | outcome => outcome
    else tryAfter mayEnd next rest

/-- Tries to go on at once, and then after each place where a run may end. -/
def tryRun (mayEnd : Char → Bool) (next : Text → Outcome) (rest : Text) : Outcome :=
  match next rest with
  | .mismatch => tryAfter mayEnd next rest
  | outcome => outcome

/-- Matches a path with the parts of a pattern. -/
def attempt : List Token → Text → Outcome
  | [], rest => if rest.isEmpty then .matched else .mismatch
  | .anyRun :: others, rest => tryRun (fun _ => true) (attempt others) rest
  | .anyDirectories :: others, rest => tryRun (· == '/') (attempt others) rest
  | token :: others, rest =>
    match rest with
    | [] => .exhausted
    | character :: rest => if token.admits character then attempt others rest else .mismatch

/-- Whether a path matches a pattern. -/
def accepts (tokens : List Token) (path : Text) : Bool := attempt tokens path == .matched

end TidyLines.Glob
