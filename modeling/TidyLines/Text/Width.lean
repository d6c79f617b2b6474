import TidyLines.Text
import TidyLines.Text.Width.Ranges

/-!
# Columns on a terminal

How many columns the characters of a line take when it is shown with tab stops.  A tab reaches the
next multiple of the tab size; an escape character and all that follows up to a letter `m` set a
colour and take no column.
-/

namespace TidyLines.Text

namespace Width

/-- Whether a code point lies in one of the ranges. -/
def isIn (ranges : List (Nat × Nat)) (code : Nat) : Bool :=
  ranges.any fun range => range.1 ≤ code && code ≤ range.2

/-- Whether a code point is a control. -/
def isControl (code : Nat) : Bool := code < 0x20 || (0x7F ≤ code && code < 0xA0)

/-- The one sign that is three columns wide. -/
def widestSign : Nat := 0x17D8

/-- The number of columns of a character that is neither a tab nor part of an escape sequence. -/
def ofChar (character : Char) : Nat :=
  let code := character.toNat
  if isControl code then 0
  else if code < 0x7F then 1
  else if isIn zero code then 0
  else if isIn wide code then 2
  else if code = widestSign then 3
  else 1

/-- The distance between tab stops. -/
def tabSize : Nat := 4

end Width

/-- A place in a line as it is shown. -/
structure Cursor where
  /-- The number of columns before the place. -/
  column : Nat := 0
  escaped : Bool := false
  deriving DecidableEq, Repr

namespace Cursor

/-- The number of columns that a character takes at a place. -/
def width (cursor : Cursor) (character : Char) : Nat :=
  if cursor.escaped then 0
  else if character = '\t' then Width.tabSize - cursor.column % Width.tabSize
  else Width.ofChar character

/-- The place after a character. -/
def after (cursor : Cursor) (character : Char) : Cursor where
  column := cursor.column + cursor.width character
  escaped := if cursor.escaped then character != 'm' else character == '\x1b'

/-- A character as it is shown at a place: a tab as blanks. -/
def shown (cursor : Cursor) (character : Char) : Text :=
  if character = '\t' then List.replicate (cursor.width character) ' ' else [character]

end Cursor

/-- The number of columns that a line takes. -/
def columns (text : Text) : Nat := (text.foldl Cursor.after {}).column

/-- A line from some place on, with its tabs as blanks. -/
def expandTabsFrom (cursor : Cursor) : Text → Text
  | [] => []
  | character :: rest => cursor.shown character ++ expandTabsFrom (cursor.after character) rest

/-- A line with its tabs as blanks. -/
def expandTabs (text : Text) : Text := expandTabsFrom {} text

end TidyLines.Text
