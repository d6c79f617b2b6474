import TidyLines.Path

/-!
# Warnings

The program warns of names that no rule has and of files that are no text.  A filter from the
environment decides which warnings are shown: a list of levels, each for all sources of warnings or
for those whose names start with a text.  The most specific entry decides.
-/

namespace TidyLines.CommandLine

/-- Something worth a warning. -/
inductive Warning where
  | unknownRule (name : String)
  /-- A file is passed over because it is no text. -/
  | skipped (path : Path)
  deriving DecidableEq, Repr

namespace Warning

/-- The name of the source of a warning. -/
def origin : Warning → String
  | unknownRule _ => "trimlint_rules::registry"
  | skipped _ => "trimlint_core::analyzer"

/-- A character as it is shown in a log, with those spelled out that control terminals. -/
def visible (character : Char) : List Char :=
  let code := character.toNat
  if code = 0x1B then "\\x1b".toList
  else if code = 0x07 then "\\x07".toList
  else if code = 0x08 then "\\x08".toList
  else if code = 0x0C then "\\x0c".toList
  else if code = 0x7F then "\\x7f".toList
  else if 0x80 ≤ code && code ≤ 0x9F then
    "\\u\x7b".toList ++ Nat.toDigits 16 code ++ ['\x7d']
  else [character]

/-- A warning in words. -/
def message : Warning → String
  | unknownRule name => "Unknown rule: " ++ name
  | skipped path => "Skipping " ++ path.text ++ ": not valid UTF-8 text"

/-- A warning as a line of a log. -/
def line (warning : Warning) : String :=
  "WARN " ++ String.ofList (warning.message.toList.flatMap visible)

end Warning

/-- How much is logged. -/
inductive LogLevel where
  /-- Nothing. -/
  | off
  | error
  | warn
  | info
  | debug
  | trace
  deriving DecidableEq, Repr

namespace LogLevel

/-- Whether warnings are shown at a level. -/
def showsWarnings : LogLevel → Bool
  | off => false
  | error => false
  | _ => true

/-- The level with a number. -/
def ofNumber? : Nat → Option LogLevel
  | 0 => some off
  | 1 => some error
  | 2 => some warn
  | 3 => some info
  | 4 => some debug
  | 5 => some trace
  | _ => none

/-- The number that digits stand for, perhaps after a plus sign. -/
def number? (text : List Char) : Option Nat :=
  let digits := match text with
    | '+' :: digits => digits
    | digits => digits
  if digits.isEmpty || !digits.all Char.isDigit then none else some (Nat.ofDigitChars 10 digits 0)

/-- The level with a name in any ASCII case, or with a number. -/
def ofText? (text : List Char) : Option LogLevel :=
  ((number? text).bind ofNumber?).or
    (match (String.ofList text).toLower with
    | "off" => some off
    | "error" => some error
    | "warn" => some warn
    | "info" => some info
    | "debug" => some debug
    | "trace" => some trace
    | _ => none)

end LogLevel

/-- One entry of a filter. -/
structure Directive where
  /-- What the names of the sources start with, if not all are meant. -/
  origin : Option (List Char) := none
  /-- Whether the entry speaks of a span of time, so that no warning is meant. -/
  span : Bool := false
  fields : List (List Char) := []
  level : LogLevel := .trace
  deriving DecidableEq, Repr

namespace Directive

/-- What a reader of an entry is in the middle of, with the place where that starts. -/
inductive Place where
  | start
  | word (first : Nat)
  | spanName (first : Nat)
  /-- The name of a field, perhaps with a value. -/
  | field (first : Nat)
  | afterFields
  | afterSpan
  | level (first : Nat)
  deriving DecidableEq, Repr

/-- Whether an entry may start with a character. -/
def mayStart (character : Char) : Bool :=
  character == '-' || character == ':' || character == '_' || character.isAlphanum ||
    0x80 ≤ character.toNat

/-- Whether a character is a blank. -/
def isBlank (character : Char) : Bool :=
  character == ' ' || (9 ≤ character.toNat && character.toNat ≤ 13)

/-- An entry without the blanks at its ends. -/
def trim (text : List Char) : List Char :=
  ((text.dropWhile isBlank).reverse.dropWhile isBlank).reverse

/-- The part of a text between two places. -/
def slice (text : List Char) (first last : Nat) : List Char := (text.take last).drop first

/-- Reads the character at a place of an entry.  Names and levels are taken from the text of the
entry, blanks included, at the places that count without the blanks. -/
def step (text : List Char) (state : Directive × Place) (character : Char × Nat) :
    Option (Directive × Place) :=
  let (directive, place) := state
  let (character, position) := character
  match place with
  | .start =>
    if character = '[' then some (directive, .spanName (position + 1))
    else if mayStart character then some (directive, .word position)
    else none
  | .word first =>
    if character = '=' then
      some ({ directive with origin := some (slice text first position) }, .level (position + 1))
    else if character = '[' then
      some ({ directive with origin := some (slice text first position) },
        .spanName (position + 1))
    else some (directive, place)
  | .spanName first =>
    if character = ']' then some ({ directive with span := true }, .afterSpan)
    else if character = '\x7b' then
      some ({ directive with span := first < position }, .field (position + 1))
    else some (directive, place)
  | .field first =>
    if character = '\x7d' then
      if first < position then
        some ({ directive with fields := directive.fields ++ [slice text first position] },
          .afterFields)
      else none
    else some (directive, place)
  | .afterFields => if character = ']' then some (directive, .afterSpan) else none
  | .afterSpan =>
    if character = '=' then some (directive, .level (position + 1)) else none
  | .level _ => some (directive, place)

/-- The entry that has been read.  A word alone is a level or else the name of a source. -/
def finish? (text : List Char) (state : Directive × Place) : Option Directive :=
  let (directive, place) := state
  match place with
  | .word first =>
    match LogLevel.ofText? (text.drop first) with
    | some level => some { directive with level }
    | none => some { directive with origin := some (text.drop first) }
  | .level first =>
    if (text.drop first).isEmpty then some directive
    else (LogLevel.ofText? (text.drop first)).map fun level => { directive with level }
  | .afterSpan => some directive
  | _ => none

/-- Reads an entry. -/
def parse? (text : List Char) : Option Directive := do
  finish? text (← (trim text).zipIdx.foldlM (step text) ({}, .start))

/-- Whether an entry speaks of warnings at all. -/
def isStatic (directive : Directive) : Bool :=
  !directive.span && directive.fields.all fun field => !field.contains '='

/-- Whether an entry speaks of a warning.  Warnings have one field, their message. -/
def concerns (directive : Directive) (warning : Warning) : Bool :=
  (match directive.origin with
    | none => true
    | some start => start.isPrefixOf warning.origin.toList) &&
  directive.fields.all (· == "message".toList)

/-- Whether the second of two entries that concern a warning is at least as specific as the first
one. -/
def yieldsTo (first second : Directive) : Bool :=
  let size (directive : Directive) : Nat := match directive.origin with
    | none => 0
    | some start => start.length + 1
  size first < size second ||
    (size first == size second && first.fields.length ≤ second.fields.length)

end Directive

/-- Which warnings are shown. -/
structure LogFilter where
  directives : List Directive
  deriving DecidableEq, Repr

namespace LogFilter

/-- The filter with one level for everything. -/
def everywhere (level : LogLevel) : LogFilter := ⟨[{ level }]⟩

/-- The entries of a filter, without empty ones. -/
def entries (text : String) : List (List Char) :=
  (text.toList.splitOn ',').filter fun entry => !entry.isEmpty

/-- Reads a filter; without entries it shows errors only. -/
def parse? (text : String) : Option LogFilter := do
  let directives ← (entries text).mapM Directive.parse?
  return if directives.isEmpty then everywhere .error else ⟨directives⟩

/-- The name of the variable for the filter. -/
def variableName : String := "RUST_LOG"

/-- The filter for a run. -/
def ofEnvironment (environment : List (String × String)) (verbose : Bool) : LogFilter :=
  match (environment.lookup variableName).bind parse? with
  | some filter => filter
  | none => everywhere (if verbose then .debug else .warn)

/-- The entry that decides about a warning. -/
def decisive? (filter : LogFilter) (warning : Warning) : Option Directive :=
  (filter.directives.filter fun directive => directive.isStatic && directive.concerns warning).foldl
    (fun best directive =>
      match best with
      | none => some directive
      | some earlier => if earlier.yieldsTo directive then some directive else some earlier) none

/-- Whether a warning is shown. -/
def shows (filter : LogFilter) (warning : Warning) : Bool :=
  match filter.decisive? warning with
  | some directive => directive.level.showsWarnings
  | none => false

end LogFilter
end TidyLines.CommandLine
