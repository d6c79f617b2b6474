import Mathlib.Data.List.Chain
import TidyLines.Text.Line

/-!
# Splitting what was joined

Joining the lines of a text gives the text back (`Line.join_split`).  In the other order something
can be lost: a line that ends in a carriage return and a next line that is a bare line feed join to
one line.  This file says which lists of lines a text can have (`Line.Delimited`), how two lines
become one (`Line.fuse`), and proves that splitting a joined list of such lines gives the fused
list (`Line.split_join`).
-/

namespace TidyLines

namespace Text

/-- Whether a character ends a line. -/
def endsLine (character : Char) : Bool :=
  character == '\n' || character == '\r'

/-- The characters of a text before the first one that ends a line. -/
def firstContent (text : Text) : Text :=
  text.takeWhile fun character => !endsLine character

@[simp]
theorem firstContent_nil : firstContent [] = [] :=
  rfl

theorem firstContent_cons (character : Char) (rest : Text) :
    firstContent (character :: rest) =
      if endsLine character then [] else character :: firstContent rest := by
  cases ends : endsLine character <;> simp [firstContent, ends]

/-- A character is a line feed, a carriage return or no end of a line at all. -/
theorem eq_or_endsLine_eq_false (character : Char) :
    character = '\n' ∨ character = '\r' ∨ endsLine character = false := by
  by_cases feed : character = '\n'
  · exact Or.inl feed
  · by_cases ret : character = '\r'
    · exact Or.inr (Or.inl ret)
    · exact Or.inr (Or.inr (by simp [endsLine, feed, ret]))

theorem ne_of_endsLine_eq_false {character : Char} (inside : endsLine character = false) :
    character ≠ '\n' ∧ character ≠ '\r' := by
  simpa [endsLine] using inside

end Text

namespace Line

/-- Whether a line and the next one would become one line: a carriage return ends the first, and
the second is nothing but a line feed. -/
def fuses (line next : Line) : Bool :=
  line.terminator == .carriageReturn && next.isBareLineFeed

theorem fuses_iff (line next : Line) :
    line.fuses next = true ↔
      line.terminator = .carriageReturn ∧ next.content = [] ∧ next.terminator = .lineFeed := by
  simp [fuses, isBareLineFeed]

/-- A line in front of other lines, made one with the first of them where they fuse. -/
def fuseOnto (line : Line) : List Line → List Line
  | [] => [line]
  | next :: others =>
    if line.fuses next then { line with terminator := .carriageReturnLineFeed } :: others
    else line :: next :: others

/-- Lines with every carriage return joined to the line feed that directly follows it. -/
def fuse (lines : List Line) : List Line :=
  lines.foldr fuseOnto []

@[simp]
theorem fuse_nil : fuse [] = [] :=
  rfl

@[simp]
theorem fuse_cons (line : Line) (others : List Line) :
    fuse (line :: others) = fuseOnto line (fuse others) :=
  rfl

/-- The lists of lines that stand for a text: no content holds an end of a line, and the last line,
and only this one, has no terminator. -/
inductive Delimited : List Line → Prop
  | last {line : Line}
      (unbroken : ∀ character ∈ line.content, Text.endsLine character = false)
      (unterminated : line.terminator = .endOfText) :
      Delimited [line]
  | cons {line : Line} {others : List Line}
      (unbroken : ∀ character ∈ line.content, Text.endsLine character = false)
      (terminated : line.terminator ≠ .endOfText)
      (rest : Delimited others) :
      Delimited (line :: others)

/-- Only a carriage return can become one terminator with something that follows it. -/
theorem fuseOnto_of_terminator_ne {line : Line} (noReturn : line.terminator ≠ .carriageReturn)
    (others : List Line) : fuseOnto line others = line :: others := by
  cases others with
  | nil => rfl
  | cons next others => simp [fuseOnto, fuses, noReturn]

theorem fuseOnto_of_fuses {line next : Line} (fused : line.fuses next = true)
    (others : List Line) :
    fuseOnto line (next :: others) = ⟨line.content, .carriageReturnLineFeed⟩ :: others := by
  rw [fuseOnto, if_pos fused]

/-- Fusing a line with others changes at most the terminator with which the lines begin. -/
theorem exists_fuseOnto_eq (line : Line) (others : List Line) :
    ∃ more, fuseOnto line others = line :: more ∨
      fuseOnto line others = ⟨line.content, .carriageReturnLineFeed⟩ :: more := by
  cases others with
  | nil => exact ⟨[], Or.inl rfl⟩
  | cons next others =>
      rw [fuseOnto]
      split
      · exact ⟨others, Or.inr rfl⟩
      · exact ⟨next :: others, Or.inl rfl⟩

/-- Two lines that stay apart do so however the second one goes on. -/
theorem fuseOnto_fuseOnto_of_apart {line next : Line} (apart : line.fuses next = false)
    (others : List Line) :
    fuseOnto line (fuseOnto next others) = line :: fuseOnto next others := by
  have apartMerged : line.fuses ⟨next.content, .carriageReturnLineFeed⟩ = false := by
    simp [fuses, isBareLineFeed]
  obtain ⟨more, unfused | fused⟩ := exists_fuseOnto_eq next others
  · rw [unfused, fuseOnto, apart]
    rfl
  · rw [fused, fuseOnto, apartMerged]
    rfl

/-! ## One character in front -/

theorem push_lineFeed {lines : List Line} (nonempty : lines ≠ []) :
    push '\n' lines = ⟨[], .lineFeed⟩ :: lines := by
  cases lines with
  | nil => contradiction
  | cons first others => simp [push]

/-- A carriage return in front of a text is a line of its own that may fuse with the next one. -/
theorem push_carriageReturn {lines : List Line} (nonempty : lines ≠ []) :
    push '\r' lines = fuseOnto ⟨[], .carriageReturn⟩ lines := by
  cases lines with
  | nil => contradiction
  | cons first others => simp [push, fuseOnto, fuses]

theorem push_of_not_endsLine {character : Char} (inside : Text.endsLine character = false)
    (first : Line) (others : List Line) :
    push character (first :: others) =
      ⟨character :: first.content, first.terminator⟩ :: others := by
  obtain ⟨noFeed, noReturn⟩ := Text.ne_of_endsLine_eq_false inside
  simp [push, noFeed, noReturn]

theorem delimited_push (character : Char) {lines : List Line} (delimited : Delimited lines) :
    Delimited (push character lines) := by
  have nonempty : lines ≠ [] := by rintro rfl; cases delimited
  rcases Text.eq_or_endsLine_eq_false character with rfl | rfl | inside
  · rw [push_lineFeed nonempty]
    exact .cons (by simp) (by simp) delimited
  · rw [push_carriageReturn nonempty]
    cases delimited with
    | @last line unbroken unterminated =>
        have apart : fuses ⟨[], .carriageReturn⟩ line = false := by
          simp [fuses, isBareLineFeed, unterminated]
        rw [fuseOnto, apart]
        exact .cons (by simp) (by simp) (.last unbroken unterminated)
    | cons unbroken terminated rest =>
        rw [fuseOnto]
        split
        · exact .cons (by simp) (by simp) rest
        · exact .cons (by simp) (by simp) (.cons unbroken terminated rest)
  · cases delimited with
    | last unbroken unterminated =>
        rw [push_of_not_endsLine inside]
        exact .last (by simpa [inside] using unbroken) unterminated
    | cons unbroken terminated rest =>
        rw [push_of_not_endsLine inside]
        exact .cons (by simpa [inside] using unbroken) terminated rest

/-- The lines of a text stand for a text. -/
theorem delimited_split (text : Text) : Delimited (split text) := by
  induction text with
  | nil =>
      rw [split_nil]
      exact .last (by simp [last]) rfl
  | cons character rest ih => exact delimited_push character ih

/-- The content of the first line is what stands before the first end of a line. -/
theorem exists_split_eq (text : Text) :
    ∃ terminator others, split text = ⟨text.firstContent, terminator⟩ :: others := by
  induction text with
  | nil => exact ⟨_, _, rfl⟩
  | cons character rest ih =>
      obtain ⟨terminator, others, splitRest⟩ := ih
      rw [split_cons, splitRest, Text.firstContent_cons]
      rcases Text.eq_or_endsLine_eq_false character with rfl | rfl | inside
      · exact ⟨_, _, push_lineFeed (by simp)⟩
      · rw [push_carriageReturn (by simp), fuseOnto]
        split
        · exact ⟨_, _, rfl⟩
        · exact ⟨_, _, rfl⟩
      · rw [push_of_not_endsLine inside, inside]
        exact ⟨_, _, rfl⟩

/-! ## One line in front -/

private theorem foldr_push_of_unbroken {content : Text}
    (unbroken : ∀ character ∈ content, Text.endsLine character = false)
    (first : Line) (others : List Line) :
    content.foldr push (first :: others) =
      ⟨content ++ first.content, first.terminator⟩ :: others := by
  induction content with
  | nil => rfl
  | cons character rest ih =>
      rw [List.foldr_cons, ih fun other member => unbroken other (by simp [member]),
        push_of_not_endsLine (unbroken character (by simp))]
      rfl

private theorem foldr_push_fuseOnto {line : Line}
    (unbroken : ∀ character ∈ line.content, Text.endsLine character = false)
    (others : List Line) :
    line.content.foldr push (fuseOnto ⟨[], line.terminator⟩ others) = fuseOnto line others := by
  cases others with
  | nil => simpa [fuseOnto] using foldr_push_of_unbroken unbroken ⟨[], line.terminator⟩ []
  | cons next others =>
      have sameTest : fuses ⟨[], line.terminator⟩ next = line.fuses next := rfl
      rw [fuseOnto, fuseOnto, sameTest]
      split
      · simpa using foldr_push_of_unbroken unbroken ⟨[], .carriageReturnLineFeed⟩ others
      · simpa using foldr_push_of_unbroken unbroken ⟨[], line.terminator⟩ (next :: others)

/-- A terminated line in front of a text is its first line, unless the two fuse. -/
theorem split_text_append {line : Line}
    (unbroken : ∀ character ∈ line.content, Text.endsLine character = false)
    (terminated : line.terminator ≠ .endOfText) (rest : Text) :
    split (line.text ++ rest) = fuseOnto line (split rest) := by
  have nonempty : split rest ≠ [] := split_ne_nil rest
  have terminatorFirst :
      split (line.terminator.text ++ rest) = fuseOnto ⟨[], line.terminator⟩ (split rest) := by
    obtain ⟨first, others, splitRest⟩ := List.exists_cons_of_ne_nil nonempty
    cases ending : line.terminator with
    | endOfText => contradiction
    | lineFeed => simp [Terminator.text, splitRest, push_lineFeed, fuseOnto, fuses]
    | carriageReturn => simp [Terminator.text, splitRest, push_carriageReturn]
    | carriageReturnLineFeed =>
        simp [Terminator.text, splitRest, push_lineFeed, push_carriageReturn, fuseOnto, fuses,
          isBareLineFeed]
  rw [text, List.append_assoc, split, List.foldr_append, ← split, terminatorFirst,
    foldr_push_fuseOnto unbroken]

/-- Splitting undoes joining, but for the carriage returns that meet a line feed. -/
theorem split_join {lines : List Line} (delimited : Delimited lines) :
    split (join lines) = fuse lines := by
  induction delimited with
  | @last line unbroken unterminated =>
      obtain ⟨content, terminator⟩ := line
      obtain rfl : terminator = .endOfText := unterminated
      have alone := foldr_push_of_unbroken unbroken Line.last []
      simpa [Terminator.text, fuseOnto, split, Line.last] using alone
  | @cons line others unbroken terminated rest ih =>
      rw [join_cons, ← text, split_text_append unbroken terminated, ih, fuse_cons]

/-- The lines of a text are fused already. -/
theorem fuse_split (text : Text) : fuse (split text) = split text := by
  rw [← split_join (delimited_split text), join_split]

/-! ## When nothing fuses -/

theorem fuse_eq_self {lines : List Line}
    (apart : lines.IsChain fun line next => line.fuses next = false) :
    fuse lines = lines := by
  induction lines with
  | nil => rfl
  | cons line others ih =>
      obtain ⟨headApart, tailApart⟩ := List.isChain_cons.mp apart
      rw [fuse_cons, ih tailApart]
      cases others with
      | nil => rfl
      | cons next others => simp [fuseOnto, headApart next (by simp)]

/-- Only behind a carriage return can two neighbours fuse. -/
theorem isChain_cons_of_terminator_ne {line : Line}
    (noReturn : line.terminator ≠ .carriageReturn) (others : List Line) :
    (line :: others).IsChain (fun line next => line.fuses next = false) ↔
      others.IsChain fun line next => line.fuses next = false := by
  rw [List.isChain_cons]
  have headApart : ∀ next ∈ others.head?, line.fuses next = false := by
    intro next _
    simp [fuses, noReturn]
  exact and_iff_right headApart

theorem length_fuseOnto_le (line : Line) (others : List Line) :
    (fuseOnto line others).length ≤ others.length + 1 := by
  cases others with
  | nil => rfl
  | cons next others =>
      rw [fuseOnto]
      split <;> simp

theorem length_fuse_le (lines : List Line) : (fuse lines).length ≤ lines.length := by
  induction lines with
  | nil => rfl
  | cons line others ih =>
      have atMostOneMore := length_fuseOnto_le line (fuse others)
      simp only [fuse_cons, List.length_cons]
      omega

/-- Fusing keeps the number of lines exactly when no two neighbours fuse. -/
theorem length_fuse_eq_iff {lines : List Line} :
    (fuse lines).length = lines.length ↔
      lines.IsChain fun line next => line.fuses next = false := by
  constructor
  · intro lengthEq
    induction lines with
    | nil => exact .nil
    | cons line others ih =>
        have atMostOneMore := length_fuseOnto_le line (fuse others)
        have tailBound := length_fuse_le others
        rw [fuse_cons, List.length_cons] at lengthEq
        have tailApart := ih (by omega)
        rw [fuse_eq_self tailApart] at lengthEq
        refine List.isChain_cons.mpr ⟨?_, tailApart⟩
        intro next isNext
        obtain ⟨more, rfl⟩ := List.head?_eq_some_iff.mp isNext
        by_contra fused
        rw [Bool.not_eq_false] at fused
        simp [fuseOnto, fused] at lengthEq
  · intro apart
    rw [fuse_eq_self apart]

/-- No carriage return that ends a line of a text meets a line feed in the next line. -/
theorem isChain_split (text : Text) :
    (split text).IsChain fun line next => line.fuses next = false :=
  length_fuse_eq_iff.mp (congrArg List.length (fuse_split text))

/-- A change of the contents that brings no new characters in gives lines of a text again. -/
theorem Delimited.map {change : Line → Line}
    (terminatorEq : ∀ line, (change line).terminator = line.terminator)
    (contentSubset : ∀ line, (change line).content ⊆ line.content)
    {lines : List Line} (delimited : Delimited lines) : Delimited (lines.map change) := by
  induction delimited with
  | @last line unbroken unterminated =>
      refine .last (fun character member => unbroken character (contentSubset _ member)) ?_
      rw [terminatorEq]
      exact unterminated
  | @cons line others unbroken terminated rest ih =>
      rw [List.map_cons]
      refine .cons (fun character member => unbroken character (contentSubset _ member)) ?_ ih
      rw [terminatorEq]
      exact terminated

end Line

end TidyLines
