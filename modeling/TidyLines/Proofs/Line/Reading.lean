import Mathlib.Logic.Function.Iterate
import TidyLines.Proofs.Line.Splitting
import TidyLines.Text.LineReader

/-!
# Lines found one after the other

The lines of a text are the only way to cut it at its terminators (`Line.factors_iff`), and their
number can be counted without cutting it (`Line.length_split`).  A reader that goes through the text
finds these lines.  Its invariant is an equation: after any number of calls it stands behind as many
lines, with their bytes and their number (`LineReader.behind`), and one more call finds the line
that is next in the list (`LineReader.next_behind`).
-/

namespace TidyLines

namespace Text

/-- The number of carriage returns that no line feed follows directly. -/
def loneReturns : Text → Nat
  | [] => 0
  | character :: rest =>
    (if character = '\r' ∧ rest.head? ≠ some '\n' then 1 else 0) + loneReturns rest

end Text

namespace Line

/-- Lines that make up a text, cut at each of its terminators: only the last line has none, no
terminator stands inside a line, and no carriage return is parted from the line feed behind it. -/
structure Factors (text : Text) (lines : List Line) : Prop where
  join_eq : join lines = text
  delimited : Delimited lines
  apart : lines.IsChain fun line next => line.fuses next = false

theorem factors_split (text : Text) : Factors text (split text) :=
  ⟨join_split text, delimited_split text, isChain_split text⟩

/-- There is one way to cut a text into lines. -/
theorem factors_iff {text : Text} {lines : List Line} :
    Factors text lines ↔ lines = split text := by
  constructor
  · rintro ⟨rfl, delimited, apart⟩
    rw [split_join delimited, fuse_eq_self apart]
  · rintro rfl
    exact factors_split text

/-! ## What is left of a text -/

theorem Delimited.ne_nil {lines : List Line} (delimited : Delimited lines) : lines ≠ [] := by
  rintro rfl
  cases delimited

theorem Delimited.drop {lines : List Line} (delimited : Delimited lines) {count : Nat}
    (inside : count < lines.length) : Delimited (lines.drop count) := by
  induction delimited generalizing count with
  | last unbroken unterminated =>
      obtain rfl : count = 0 := Nat.lt_one_iff.mp inside
      exact .last unbroken unterminated
  | cons unbroken terminated rest ih =>
      cases count with
      | zero => exact .cons unbroken terminated rest
      | succ count => exact ih (Nat.lt_of_succ_lt_succ inside)

/-- The last line, and no other, has no terminator. -/
theorem Delimited.terminator_eq_endOfText_iff {lines : List Line} (delimited : Delimited lines)
    {index : Nat} {line : Line} (found : lines[index]? = some line) :
    line.terminator = .endOfText ↔ index + 1 = lines.length := by
  induction delimited generalizing index with
  | last unbroken unterminated =>
      cases index with
      | zero =>
          obtain rfl := Option.some.inj found
          simpa using unterminated
      | succ index => simp at found
  | cons unbroken terminated rest ih =>
      cases index with
      | zero =>
          obtain rfl := Option.some.inj found
          have longer := List.length_pos_iff.mpr rest.ne_nil
          rw [List.length_cons]
          exact iff_of_false terminated (by omega)
      | succ index =>
          rw [List.getElem?_cons_succ] at found
          rw [ih found, List.length_cons, Nat.add_right_cancel_iff]

theorem Factors.drop {text : Text} {lines : List Line} (factors : Factors text lines) {count : Nat}
    (inside : count < lines.length) :
    Factors (join (lines.drop count)) (lines.drop count) :=
  ⟨rfl, factors.delimited.drop inside, factors.apart.drop count⟩

/-! ## The first line -/

theorem first_lineFeed (rest : Text) : first ('\n' :: rest) = ⟨[], .lineFeed⟩ :=
  rfl

theorem first_carriageReturn (rest : Text) :
    first ('\r' :: rest) =
      ⟨[], if rest.head? = some '\n' then .carriageReturnLineFeed else .carriageReturn⟩ := by
  cases rest with
  | nil => rfl
  | cons character rest =>
      by_cases feed : character = '\n' <;> simp [first, Terminator.leading, feed]

theorem first_of_not_endsLine {character : Char} (inside : Text.endsLine character = false)
    (rest : Text) :
    first (character :: rest) = ⟨character :: (first rest).content, (first rest).terminator⟩ := by
  simp only [Text.endsLine, Bool.or_eq_false_iff] at inside
  simp [first, inside.1, inside.2]

/-- The first line of a text is a bare line feed when the text begins with one. -/
theorem isBareLineFeed_first_iff (text : Text) :
    (first text).isBareLineFeed = true ↔ text.head? = some '\n' := by
  cases text with
  | nil => decide
  | cons character rest =>
      rcases Text.eq_or_endsLine_eq_false character with rfl | rfl | inside
      · simp [first_lineFeed, isBareLineFeed]
      · rw [first_carriageReturn]
        split <;> simp [isBareLineFeed]
      · have noFeed := (Text.ne_of_endsLine_eq_false inside).1
        simp [first_of_not_endsLine inside, isBareLineFeed, noFeed]

/-- A carriage return in front of a text takes in the line feed with which the text begins. -/
theorem push_carriageReturn_first (rest : Text) (others : List Line) :
    push '\r' (first rest :: others) =
      if rest.head? = some '\n' then ⟨[], .carriageReturnLineFeed⟩ :: others
      else ⟨[], .carriageReturn⟩ :: first rest :: others := by
  have bareIff := isBareLineFeed_first_iff rest
  rw [push_carriageReturn (List.cons_ne_nil _ _), fuseOnto]
  simp [fuses, bareIff]

/-- The first line of a text is what comes before all other lines. -/
theorem exists_split_eq_first (text : Text) : ∃ others, split text = first text :: others := by
  induction text with
  | nil => exact ⟨[], rfl⟩
  | cons character rest ih =>
      obtain ⟨others, splitRest⟩ := ih
      rw [split_cons, splitRest]
      rcases Text.eq_or_endsLine_eq_false character with rfl | rfl | inside
      · exact ⟨_, push_lineFeed (List.cons_ne_nil _ _)⟩
      · rw [push_carriageReturn_first, first_carriageReturn]
        split
        · exact ⟨others, rfl⟩
        · exact ⟨first rest :: others, rfl⟩
      · rw [push_of_not_endsLine inside, first_of_not_endsLine inside]
        exact ⟨others, rfl⟩

/-- The lines that are left when some are taken from the front begin with the first line of what is
left of the text. -/
theorem first_join_drop (text : Text) {count : Nat} (inside : count < (split text).length) :
    first (join ((split text).drop count)) = (split text)[count] := by
  obtain ⟨others, splitRest⟩ := exists_split_eq_first (join ((split text).drop count))
  rw [← factors_iff.mp ((factors_split text).drop inside)] at splitRest
  have headEq := congrArg List.head? splitRest
  rw [List.head?_drop, List.getElem?_eq_getElem inside] at headEq
  exact (Option.some.inj headEq).symm

/-- A text has as many lines as it has terminators, and one more. -/
theorem length_split (text : Text) :
    (split text).length = 1 + text.count '\n' + text.loneReturns := by
  induction text with
  | nil => rfl
  | cons character rest ih =>
      obtain ⟨others, splitRest⟩ := exists_split_eq_first rest
      rw [splitRest] at ih
      rw [split_cons, splitRest, Text.loneReturns]
      rcases Text.eq_or_endsLine_eq_false character with rfl | rfl | inside
      · rw [push_lineFeed (by simp), List.length_cons, ih]
        simp
        omega
      · have noFeed : ('\r' : Char) ≠ '\n' := by decide
        rw [push_carriageReturn_first, List.count_cons_of_ne noFeed]
        by_cases feeds : rest.head? = some '\n'
        · simpa [feeds] using ih
        · rw [if_neg feeds, if_pos ⟨rfl, feeds⟩, List.length_cons, ih]
          omega
      · obtain ⟨noFeed, noReturn⟩ := Text.ne_of_endsLine_eq_false inside
        rw [push_of_not_endsLine inside, List.count_cons_of_ne noFeed, if_neg (by simp [noReturn]),
          List.length_cons]
        simpa using ih

end Line

namespace PlacedLine

/-- Every line is placed behind the lines before it. -/
theorem placeFrom_eq_mapIdx (number offset : Nat) (lines : List Line) :
    placeFrom number offset lines = lines.mapIdx fun index line => {
      line with
      number := number + index
      offset := offset + Text.byteLength (Line.join (lines.take index)) } := by
  induction lines generalizing number offset with
  | nil => rfl
  | cons line others ih =>
      rw [placeFrom, ih, List.mapIdx_cons]
      refine congrArg₂ List.cons (by simp) (List.mapIdx_eq_mapIdx_iff.mpr ?_)
      intro index inside
      simp [Line.text, Nat.add_assoc, Nat.add_comm 1]

theorem split_eq_mapIdx (text : Text) :
    split text = (Line.split text).mapIdx fun index line => {
      line with
      number := index + 1
      offset := Text.byteLength (Line.join ((Line.split text).take index)) } := by
  rw [split, placeFrom_eq_mapIdx]
  simp [Nat.add_comm 1]

end PlacedLine

namespace LineReader

/-- The reader after one call. -/
def advance (reader : LineReader) : LineReader := reader.next.2

/-- A reader of a text behind some of its lines, or behind all of them. -/
def behind (text : Text) (count : Nat) : LineReader where
  text
  position := Text.byteLength (Line.join ((Line.split text).take count))
  count := min count (Line.split text).length
  ended := (Line.split text).length ≤ count

variable (text : Text)

theorem behind_zero : behind text 0 = start text := by
  have someLine := List.length_pos_iff.mpr (Line.split_ne_nil text)
  simp [behind, start, Line.split_ne_nil text]

/-- What a reader has not read starts between two characters. -/
theorem fromByte?_position_behind (count : Nat) :
    text.fromByte? (behind text count).position =
      some (Line.join ((Line.split text).drop count)) := by
  have parts : Line.join ((Line.split text).take count) ++
      Line.join ((Line.split text).drop count) = text := by
    rw [Line.join, Line.join, ← List.flatMap_append, List.take_append_drop]
    exact Line.join_split text
  have found := Text.fromByte?_byteLength_append (Line.join ((Line.split text).take count))
    (Line.join ((Line.split text).drop count))
  rwa [parts] at found

/-- Behind one line more, a reader stands that line's bytes further on. -/
theorem behind_succ {count : Nat} (inside : count < (Line.split text).length) :
    behind text (count + 1) = {
      text
      position := (behind text count).position + Text.byteLength (Line.split text)[count].text
      count := count + 1
      ended := (Line.split text)[count].terminator == .endOfText } := by
  have isNext := List.getElem?_eq_getElem inside
  have lastIff := (Line.delimited_split text).terminator_eq_endOfText_iff isNext
  have oneMore : (Line.split text).take (count + 1) =
      (Line.split text).take count ++ [(Line.split text)[count]] :=
    List.take_succ_eq_append_getElem inside
  have atEnd : ((Line.split text).length ≤ count + 1) ↔ count + 1 = (Line.split text).length := by
    omega
  rw [behind, behind, LineReader.mk.injEq]
  refine ⟨rfl, ?_, Nat.min_eq_left inside, ?_⟩
  · rw [oneMore, Line.join, List.flatMap_append, Text.byteLength_append]
    simp [Line.join]
  · rw [Bool.eq_iff_iff, decide_eq_true_iff, beq_iff_eq, atEnd, lastIff]

/-- A reader that is behind all lines stays where it is. -/
theorem behind_succ_of_length_le {count : Nat} (outside : (Line.split text).length ≤ count) :
    behind text (count + 1) = behind text count := by
  have outsideToo : (Line.split text).length ≤ count + 1 := Nat.le_succ_of_le outside
  simp [behind, List.take_of_length_le, outside, outsideToo]

/-- One call finds the line that is next in the list, or nothing behind the last one. -/
theorem next_behind (count : Nat) :
    (behind text count).next = ((PlacedLine.split text)[count]?, behind text (count + 1)) := by
  rw [next, PlacedLine.split_eq_mapIdx, List.getElem?_mapIdx]
  by_cases inside : count < (Line.split text).length
  · have goesOn : (behind text count).ended = false := by simpa [behind] using inside
    have counted : (behind text count).count = count := Nat.min_eq_left inside.le
    have rest := fromByte?_position_behind text count
    change (behind text count).text.fromByte? _ = _ at rest
    rw [goesOn, if_neg Bool.false_ne_true, rest, List.getElem?_eq_getElem inside,
      behind_succ text inside]
    simp only [Line.first_join_drop text inside, counted]
    rfl
  · have outside := Nat.not_lt.mp inside
    have stops : (behind text count).ended = true := by simpa [behind] using outside
    rw [stops, if_pos rfl, List.getElem?_eq_none outside, behind_succ_of_length_le text outside]
    rfl

/-- Calls lead from the first line of a text past as many of its lines. -/
theorem advance_iterate_start (calls : Nat) : advance^[calls] (start text) = behind text calls := by
  induction calls with
  | zero => exact (behind_zero text).symm
  | succ calls ih => rw [Function.iterate_succ_apply', ih, advance, next_behind]

theorem readAll_behind (count : Nat) :
    (behind text count).readAll = (PlacedLine.split text).drop count := by
  induction ahead : (PlacedLine.split text).drop count generalizing count with
  | nil =>
      have found := next_behind text count
      rw [← List.head?_drop, ahead] at found
      exact readAll_of_next_none found
  | cons line others ih =>
      have found := next_behind text count
      rw [← List.head?_drop, ahead] at found
      have aheadNext : (PlacedLine.split text).drop (count + 1) = others := by
        rw [← List.drop_drop, ahead]
        rfl
      rw [readAll_of_next_some found, ih (count + 1) aheadNext]

/-- A reader finds all lines of a text, each in its place. -/
theorem readAll_start : (start text).readAll = PlacedLine.split text := by
  rw [← behind_zero, readAll_behind, List.drop_zero]

/-- Reading a text line by line ends, and finds the lines into which the text can be cut in one way
only.  They are numbered from one and stand behind the bytes of the lines before them; there is one
more of them than there are terminators.  Each call finds the next of them and every later call
finds nothing.  Before the end a reader always stands between two characters. -/
theorem finds_only_factorization :
    (∀ lines, Line.Factors text lines ↔ lines = (start text).readAll.map PlacedLine.toLine) ∧
      (start text).readAll = (Line.split text).mapIdx (fun index line => {
        line with
        number := index + 1
        offset := Text.byteLength (Line.join ((Line.split text).take index)) }) ∧
      (start text).readAll = PlacedLine.split text ∧
      (start text).readAll.length = 1 + text.count '\n' + text.loneReturns ∧
      (∀ calls, (advance^[calls] (start text)).next.1 = (start text).readAll[calls]?) ∧
      ∀ calls, (advance^[calls] (start text)).ended = false →
        ((advance^[calls] (start text)).text.fromByte?
          (advance^[calls] (start text)).position).isSome := by
  have onlyLines : (PlacedLine.split text).map PlacedLine.toLine = Line.split text :=
    PlacedLine.toLine_placeFrom 1 0 (Line.split text)
  rw [readAll_start]
  refine ⟨?_, PlacedLine.split_eq_mapIdx text, rfl, ?_, ?_, ?_⟩
  · intro lines
    rw [onlyLines, Line.factors_iff]
  · rw [← Line.length_split, ← onlyLines, List.length_map]
  · intro calls
    rw [advance_iterate_start, next_behind]
  · intro calls _
    have rest := fromByte?_position_behind text calls
    rw [advance_iterate_start]
    exact Option.isSome_of_eq_some rest

end LineReader

end TidyLines
