import TidyLines.Text

/-!
# Lines and their terminators

A text is a list of lines, each a content followed by a terminator: a line feed, a carriage
return, or the two together.  The last line has no terminator, so the empty text is one empty
line and every text is the concatenation of its lines (`Line.join_split`).

Splitting works from the right: `Line.push` puts one character in front of a text that is already
split.
-/

namespace TidyLines

/-- What ends a line. -/
inductive Terminator where
  | endOfText
  | lineFeed
  /-- A carriage return that no line feed follows. -/
  | carriageReturn
  /-- A carriage return and a line feed. -/
  | carriageReturnLineFeed
  deriving DecidableEq, Repr

/-- The characters of a terminator. -/
def Terminator.text : Terminator → Text
  | endOfText => []
  | lineFeed => ['\n']
  | carriageReturn => ['\r']
  | carriageReturnLineFeed => ['\r', '\n']

/-- One line of a text. -/
structure Line where
  content : Text
  terminator : Terminator
  deriving DecidableEq, Repr

namespace Line

/-- The characters of a line, its terminator included. -/
def text (line : Line) : Text := line.content ++ line.terminator.text

/-- The line with nothing in it that ends the text. -/
def last : Line := ⟨[], .endOfText⟩

/-- Whether a line is a line feed and nothing else. -/
def isBareLineFeed (line : Line) : Bool :=
  line.content.isEmpty && line.terminator == .lineFeed

/-- The lines of a text with one more character in front.  A carriage return joins a line feed
that follows it directly. -/
def push (character : Char) : List Line → List Line
  | [] => [⟨[character], .endOfText⟩]
  | first :: others =>
    if character = '\n' then
      ⟨[], .lineFeed⟩ :: first :: others
    else if character = '\r' then
      if first.isBareLineFeed then ⟨[], .carriageReturnLineFeed⟩ :: others
      else ⟨[], .carriageReturn⟩ :: first :: others
    else
      { first with content := character :: first.content } :: others

/-- The lines of a text. -/
def split (text : Text) : List Line := text.foldr push [last]

@[simp] theorem split_nil : split [] = [last] := rfl

@[simp] theorem split_cons (character : Char) (rest : Text) :
    split (character :: rest) = push character (split rest) := rfl

theorem split_ne_nil (text : Text) : split text ≠ [] := by
  cases text with
  | nil => simp
  | cons character rest =>
    rw [split_cons]
    unfold push
    split
    · simp
    · split
      · simp
      · split
        · split <;> simp
        · simp

/-- The text that a list of lines makes up. -/
def join (lines : List Line) : Text := lines.flatMap text

@[simp] theorem join_nil : join [] = [] := rfl

@[simp] theorem join_cons (line : Line) (others : List Line) :
    join (line :: others) = line.content ++ line.terminator.text ++ join others := by
  simp [join, text]

theorem join_push (character : Char) (lines : List Line) (nonempty : lines ≠ []) :
    join (push character lines) = character :: join lines := by
  cases lines with
  | nil => contradiction
  | cons first others =>
    unfold push
    by_cases feed : character = '\n'
    · simp [feed, Terminator.text]
    · by_cases ret : character = '\r'
      · by_cases bare : first.isBareLineFeed
        · obtain ⟨content, terminator⟩ := first
          simp only [isBareLineFeed, Bool.and_eq_true, List.isEmpty_iff, beq_iff_eq] at bare
          obtain ⟨rfl, rfl⟩ := bare
          simp [ret, isBareLineFeed, Terminator.text]
        · simp [ret, bare, Terminator.text]
      · simp [feed, ret]

/-- A text is the concatenation of its lines. -/
theorem join_split (text : Text) : join (split text) = text := by
  induction text with
  | nil => rfl
  | cons character rest inductionHypothesis =>
    rw [split_cons, join_push _ _ (split_ne_nil rest), inductionHypothesis]

end Line

/-- A line together with its place in the text. -/
structure PlacedLine extends Line where
  /-- The number of the line, counted from one. -/
  number : Nat
  /-- The number of bytes before the line. -/
  offset : Nat
  deriving DecidableEq, Repr

namespace PlacedLine

/-- Places lines one after the other, from a first number and offset. -/
def placeFrom (number offset : Nat) : List Line → List PlacedLine
  | [] => []
  | line :: others =>
    { line with number, offset } ::
      placeFrom (number + 1) (offset + Text.byteLength line.text) others

/-- The lines of a text with their places. -/
def split (text : Text) : List PlacedLine := placeFrom 1 0 (Line.split text)

@[simp] theorem toLine_placeFrom (number offset : Nat) (lines : List Line) :
    (placeFrom number offset lines).map PlacedLine.toLine = lines := by
  induction lines generalizing number offset with
  | nil => rfl
  | cons line others inductionHypothesis => simp [placeFrom, inductionHypothesis]

end PlacedLine
end TidyLines
