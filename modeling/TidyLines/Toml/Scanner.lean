import TidyLines.Toml

/-!
# Reading TOML character by character

A scanner takes characters from the front of a text and either fails or yields what it has read
together with the rest.
-/

namespace TidyLines.Toml

/-- Reads from the front of a text. -/
abbrev Scanner := StateT Text Option

namespace Scanner

/-- The next character, which stays in place. -/
def peek : Scanner (Option Char) := fun rest => some (rest.head?, rest)

/-- Takes the given characters. -/
def exactly (expected : Text) : Scanner Unit := fun rest =>
  if expected.isPrefixOf rest then some ((), rest.drop expected.length) else none

/-- Takes the given characters if they are there, and says whether they were. -/
def optionally (expected : Text) : Scanner Bool := fun rest =>
  if expected.isPrefixOf rest then some (true, rest.drop expected.length) else some (false, rest)

/-- Takes characters as long as they match. -/
def takeWhile (matching : Char → Bool) : Scanner Text := fun rest =>
  some (rest.takeWhile matching, rest.dropWhile matching)

/-- Whether nothing is left. -/
def atEnd : Scanner Bool := fun rest => some (rest.isEmpty, rest)

/-- Whether a character is a blank. -/
def isBlank (character : Char) : Bool := character == ' ' || character == '\t'

/-- Whether a character may stand in a comment, which excludes the control characters but the
tab. -/
def isPrintable (character : Char) : Bool :=
  character == '\t' || (0x20 ≤ character.toNat && character.toNat != 0x7F)

/-- Takes blanks. -/
def blanks : Scanner Unit := discard (takeWhile isBlank)

/-- Takes a line feed, alone or after a carriage return. -/
def newLine : Scanner Unit := fun rest =>
  match rest with
  | '\n' :: rest => some ((), rest)
  | '\r' :: '\n' :: rest => some ((), rest)
  | _ => none

/-- Takes a comment, if there is one. -/
def comment : Scanner Unit := do
  if ← optionally ['#'] then
    discard (takeWhile isPrintable)

/-- Takes what may follow a value or a header: blanks, a comment and the end of the line. -/
def endOfLine : Scanner Unit := do
  blanks
  comment
  unless ← atEnd do newLine

/-- What the blanks between the items of an array may consist of. -/
inductive Gap where
  | blank
  | comment
  /-- A line end whose carriage return has been read. -/
  | lineEnd

/-- Takes blanks, comments and line ends.  A comment must end with its line. -/
def gapFrom : Gap → Text → Option Text
  | .blank, [] => some []
  | _, [] => none
  | .blank, character :: rest =>
    if isBlank character || character == '\n' then gapFrom .blank rest
    else if character = '\r' then gapFrom .lineEnd rest
    else if character = '#' then gapFrom .comment rest
    else some (character :: rest)
  | .comment, character :: rest =>
    if character = '\n' then gapFrom .blank rest
    else if character = '\r' then gapFrom .lineEnd rest
    else if isPrintable character then gapFrom .comment rest
    else none
  | .lineEnd, character :: rest => if character = '\n' then gapFrom .blank rest else none

/-- Takes all blanks, comments and line ends. -/
def gap : Scanner Unit := fun rest => (gapFrom .blank rest).map ((), ·)

end Scanner
end TidyLines.Toml
