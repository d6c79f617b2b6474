import TidyLines.Text.Line

/-!
# Reading lines one at a time

A reader goes through a text from one line to the next.  It keeps the text as a whole and remembers
how many bytes of it are behind it, so that each line is looked for from a byte position.  Reading
ends behind the line without a terminator; it would also end at a position that is no place between
two characters of the text.
-/

namespace TidyLines

namespace Text

/-- The rest of a text from a number of bytes on, if the text has so many and a character starts
there or the text ends. -/
def fromByte? : Nat → Text → Option Text
  | 0, text => some text
  | _ + 1, [] => none
  | size + 1, character :: rest =>
    if character.utf8Size ≤ size + 1 then fromByte? (size + 1 - character.utf8Size) rest else none

@[simp] theorem fromByte?_zero (text : Text) : fromByte? 0 text = some text := by
  rw [fromByte?]

theorem fromByte?_cons (size : Nat) (character : Char) (rest : Text) :
    fromByte? (character.utf8Size + size) (character :: rest) = fromByte? size rest := by
  obtain ⟨more, sizeEq⟩ : ∃ more, character.utf8Size + size = more + 1 :=
    Nat.exists_eq_add_one.mpr (Nat.add_pos_left character.utf8Size_pos size)
  rw [sizeEq, fromByte?, if_pos (by omega), ← sizeEq, Nat.add_sub_cancel_left]

/-- Behind the bytes of the first of two texts the second one starts. -/
theorem fromByte?_byteLength_append (first second : Text) :
    fromByte? (byteLength first) (first ++ second) = some second := by
  induction first with
  | nil => simp
  | cons character rest inductionHypothesis =>
    rw [byteLength_cons, List.cons_append, fromByte?_cons, inductionHypothesis]

/-- The rest of a text has the bytes that are not behind it. -/
theorem byteLength_of_fromByte? {size : Nat} {text rest : Text}
    (found : fromByte? size text = some rest) : size + byteLength rest = byteLength text := by
  induction text generalizing size with
  | nil =>
    cases size with
    | zero => simp_all
    | succ size => simp [fromByte?] at found
  | cons character others inductionHypothesis =>
    cases size with
    | zero => simp_all
    | succ size =>
      simp only [fromByte?, Option.ite_none_right_eq_some] at found
      have behind := inductionHypothesis found.2
      rw [byteLength_cons]
      omega

end Text

/-- The terminator with which a text begins, if it begins with one. -/
def Terminator.leading : Text → Terminator
  | '\r' :: '\n' :: _ => carriageReturnLineFeed
  | '\r' :: _ => carriageReturn
  | '\n' :: _ => lineFeed
  | _ => endOfText

/-- The first line of a text. -/
def Line.first (text : Text) : Line where
  content := text.takeWhile fun character => !(character == '\n' || character == '\r')
  terminator := .leading (text.dropWhile fun character => !(character == '\n' || character == '\r'))

theorem Line.byteLength_text_pos {line : Line} (terminated : line.terminator ≠ .endOfText) :
    0 < Text.byteLength line.text := by
  rw [Line.text, Text.byteLength_append]
  refine Nat.add_pos_right _ ?_
  cases ending : line.terminator with
  | endOfText => contradiction
  | lineFeed => decide
  | carriageReturn => decide
  | carriageReturnLineFeed => decide

/-- A way through the lines of a text. -/
structure LineReader where
  text : Text
  /-- The number of bytes that have been read. -/
  position : Nat
  /-- The number of lines that have been read. -/
  count : Nat
  /-- Whether the last line has been read. -/
  ended : Bool
  deriving DecidableEq, Repr

namespace LineReader

/-- A reader before the first line of a text. -/
def start (text : Text) : LineReader := ⟨text, 0, 0, false⟩

/-- The next line, if there is one, and the reader after it. -/
def next (reader : LineReader) : Option PlacedLine × LineReader :=
  if reader.ended then (none, reader)
  else match reader.text.fromByte? reader.position with
    | none => (none, reader)
    | some rest =>
      let line := Line.first rest
      (some { line with number := reader.count + 1, offset := reader.position },
        { reader with
          position := reader.position + Text.byteLength line.text
          count := reader.count + 1
          ended := line.terminator == .endOfText })

/-- A bound on the number of lines that a reader will still find. -/
def bound (reader : LineReader) : Nat :=
  if reader.ended then 0 else Text.byteLength reader.text + 1 - reader.position

/-- Every line that is found brings a reader closer to the end. -/
theorem bound_lt_of_next {reader after : LineReader} {line : PlacedLine}
    (found : reader.next = (some line, after)) : after.bound < reader.bound := by
  rw [next] at found
  cases ended : reader.ended with
  | true => simp [ended] at found
  | false =>
    cases rest? : reader.text.fromByte? reader.position with
    | none => simp [ended, rest?] at found
    | some rest =>
      have bytes := Text.byteLength_of_fromByte? rest?
      simp only [ended, rest?, Bool.false_eq_true, if_false, Prod.mk.injEq] at found
      obtain ⟨-, rfl⟩ := found
      simp only [bound, ended, beq_iff_eq, Bool.false_eq_true, if_false]
      split
      next => omega
      next terminated =>
        have positive := Line.byteLength_text_pos terminated
        omega

/-- All lines that a reader still finds. -/
def readAll (reader : LineReader) : List PlacedLine :=
  match _found : reader.next with
  | (none, _) => []
  | (some line, after) => line :: after.readAll
termination_by reader.bound
decreasing_by exact bound_lt_of_next _found

theorem readAll_of_next_none {reader after : LineReader} (found : reader.next = (none, after)) :
    reader.readAll = [] := by
  rw [readAll]
  split <;> simp_all

theorem readAll_of_next_some {reader after : LineReader} {line : PlacedLine}
    (found : reader.next = (some line, after)) : reader.readAll = line :: after.readAll := by
  rw [readAll]
  split <;> simp_all

end LineReader
end TidyLines
