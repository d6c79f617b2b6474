import TidyLines.Proofs.Line.Splitting
import TidyLines.Proofs.Text.Trimming
import TidyLines.TrailingSpaces

/-!
# Correction character by character

`TrailingSpaces.correct` takes a text apart into lines, trims each of them and joins what is left.
This file describes the same text without any lines: a character is deleted exactly when it and
all that follows it up to the next end of a line is white space.  The bridge is one equation for a
text with one more character in front (`TrailingSpaces.correct_cons`), from which everything that
holds of all corrected texts follows by induction on the characters.
-/

namespace TidyLines

namespace Text

/-- Whether a text has only matching characters before its first end of a line. -/
def blankAhead (matching : Char → Bool) (text : Text) : Bool :=
  text.firstContent.all matching

theorem blankAhead_cons (matching : Char → Bool) (character : Char) (rest : Text) :
    blankAhead matching (character :: rest) =
      (endsLine character || (matching character && blankAhead matching rest)) := by
  rw [blankAhead, firstContent_cons]
  cases endsLine character <;> simp [blankAhead]

/-- Whether the character at a position is matching and only matching characters stand between it
and the next end of a line, or the end of the text when no line ends behind it. -/
def trails (matching : Char → Bool) (text : Text) (position : Nat) : Bool :=
  text[position]?.any matching && blankAhead matching (text.drop (position + 1))

/-- A text without the characters at the chosen positions. -/
def deleteAt (chosen : Nat → Bool) (text : Text) : Text :=
  (text.zipIdx.filter fun entry => !chosen entry.2).map Prod.fst

@[simp]
theorem deleteAt_nil (chosen : Nat → Bool) : deleteAt chosen [] = [] :=
  rfl

theorem deleteAt_cons (chosen : Nat → Bool) (character : Char) (rest : Text) :
    deleteAt chosen (character :: rest) =
      if chosen 0 then deleteAt (fun position => chosen (position + 1)) rest
      else character :: deleteAt (fun position => chosen (position + 1)) rest := by
  have shifted : (rest.zipIdx 1).filter (fun entry => !chosen entry.2) =
      (rest.zipIdx.filter fun entry => !chosen (entry.2 + 1)).map
        fun entry => (entry.1, entry.2 + 1) := by
    rw [List.zipIdx_succ, List.filter_map]
    rfl
  rw [deleteAt, List.zipIdx_cons, List.filter_cons, Nat.zero_add, shifted]
  cases chosen 0 <;> simp [deleteAt]

end Text

namespace TrailingSpaces

variable (settings : TrailingSpaces)

@[simp]
theorem correct_nil : settings.correct [] = [] :=
  rfl

private theorem correctLine_text (content : Text) (terminator : Terminator) :
    (settings.correctLine ⟨content, terminator⟩).text =
      Text.dropTrailing settings.whitespace.contains content ++ terminator.text :=
  rfl

private theorem correct_of_split {text : Text} {line : Line} {others : List Line}
    (splitText : Line.split text = line :: others) :
    settings.correct text =
      (settings.correctLine line).text ++ Line.join (others.map settings.correctLine) := by
  rw [correct, splitText, List.map_cons, Line.join_cons, Line.text]

private theorem correct_lineFeed (rest : Text) :
    settings.correct ('\n' :: rest) = '\n' :: settings.correct rest := by
  have pushed := Line.push_lineFeed (Line.split_ne_nil rest)
  rw [← Line.split_cons] at pushed
  rw [settings.correct_of_split pushed, correctLine_text]
  rfl

private theorem correct_carriageReturn (rest : Text) :
    settings.correct ('\r' :: rest) = '\r' :: settings.correct rest := by
  obtain ⟨terminator, others, splitRest⟩ := Line.exists_split_eq rest
  have pushed := Line.push_carriageReturn (Line.split_ne_nil rest)
  rw [← Line.split_cons, splitRest, Line.fuseOnto] at pushed
  split at pushed
  next fused =>
    -- The carriage return takes the line feed in, which is all of the next line.
    obtain ⟨-, emptyContent, rfl⟩ := (Line.fuses_iff _ _).mp fused
    dsimp only at emptyContent
    rw [settings.correct_of_split pushed, settings.correct_of_split splitRest, emptyContent,
      correctLine_text, correctLine_text]
    rfl
  next apart =>
    rw [settings.correct_of_split pushed, correctLine_text, List.map_cons, Line.join_cons,
      settings.correct_of_split splitRest, Line.text]
    rfl

private theorem correct_inside {character : Char} (inside : Text.endsLine character = false)
    (rest : Text) :
    settings.correct (character :: rest) =
      if settings.whitespace.contains character &&
          Text.blankAhead settings.whitespace.contains rest then settings.correct rest
      else character :: settings.correct rest := by
  obtain ⟨terminator, others, splitRest⟩ := Line.exists_split_eq rest
  have pushed := Line.push_of_not_endsLine inside ⟨rest.firstContent, terminator⟩ others
  rw [← splitRest, ← Line.split_cons] at pushed
  rw [settings.correct_of_split pushed, settings.correct_of_split splitRest, correctLine_text,
    correctLine_text, Text.dropTrailing_cons]
  have blankIff : Text.blankAhead settings.whitespace.contains rest = true ↔
      Text.dropTrailing settings.whitespace.contains rest.firstContent = [] := by
    rw [Text.dropTrailing_eq_nil_iff, Text.blankAhead, List.all_eq_true]
  by_cases blank : Text.blankAhead settings.whitespace.contains rest = true
  · rw [blank, blankIff.mp blank]
    cases settings.whitespace.contains character <;> simp
  · have notNil := mt blankIff.mpr blank
    rw [Bool.not_eq_true] at blank
    simp [blank, notNil]

/-- A character in front of a text goes away exactly when it is white space and only white space
follows it in its line. -/
theorem correct_cons (character : Char) (rest : Text) :
    settings.correct (character :: rest) =
      if settings.whitespace.contains character &&
          Text.blankAhead settings.whitespace.contains rest then settings.correct rest
      else character :: settings.correct rest := by
  rcases Text.eq_or_endsLine_eq_false character with rfl | rfl | inside
  · simp [correct_lineFeed]
  · simp [correct_carriageReturn]
  · exact settings.correct_inside inside rest

section Wider

variable {settings} {wide : TrailingSpaces}
  (covers : ∀ character, settings.whitespace.contains character = true →
    wide.whitespace.contains character = true)

include covers

theorem blankAhead_of_covers {text : Text}
    (blank : Text.blankAhead settings.whitespace.contains text = true) :
    Text.blankAhead wide.whitespace.contains text = true := by
  rw [Text.blankAhead, List.all_eq_true] at blank ⊢
  exact fun character member => covers character (blank character member)

/-- Correction leaves white space at the beginning of a text alone where something else follows it
in the line, so what stands before the first end of a line is blank or not as before, also for a
class with more characters. -/
theorem blankAhead_correct_of_covers (text : Text) :
    Text.blankAhead wide.whitespace.contains (settings.correct text) =
      Text.blankAhead wide.whitespace.contains text := by
  induction text with
  | nil => rfl
  | cons character rest ih =>
      rw [correct_cons]
      split
      next goes =>
        rw [Bool.and_eq_true] at goes
        rw [ih, Text.blankAhead_cons, covers character goes.1, blankAhead_of_covers covers goes.2]
        simp
      next stays =>
        rw [Text.blankAhead_cons, Text.blankAhead_cons, ih]

/-- What one correction takes away, another one with more white space takes away as well. -/
theorem correct_correct_of_covers (text : Text) :
    wide.correct (settings.correct text) = wide.correct text := by
  induction text with
  | nil => rfl
  | cons character rest ih =>
      rw [correct_cons settings, correct_cons wide]
      split
      next goes =>
        rw [Bool.and_eq_true] at goes
        rw [covers character goes.1, blankAhead_of_covers covers goes.2]
        exact ih
      next stays => rw [correct_cons, blankAhead_correct_of_covers covers, ih]

end Wider

/-- A corrected text has nothing left to correct. -/
@[simp]
theorem correct_correct (text : Text) :
    settings.correct (settings.correct text) = settings.correct text :=
  correct_correct_of_covers (fun _ => id) text

theorem correct_eq_deleteAt (text : Text) :
    settings.correct text = text.deleteAt (text.trails settings.whitespace.contains) := by
  induction text with
  | nil => rfl
  | cons character rest ih =>
      rw [correct_cons, Text.deleteAt_cons, ih]
      rfl

/-- Correction takes only white space away, and moves nothing. -/
theorem filter_correct {kept : Char → Bool}
    (keepsNoSpace : ∀ character, kept character = true →
      settings.whitespace.contains character = false) (text : Text) :
    (settings.correct text).filter kept = text.filter kept := by
  induction text with
  | nil => rfl
  | cons character rest ih =>
      rw [correct_cons]
      split
      next goes =>
        rw [Bool.and_eq_true] at goes
        have dropped : ¬ kept character = true := by
          intro isKept
          simp [keepsNoSpace character isKept] at goes
        rw [ih, List.filter_cons_of_neg dropped]
      next stays => rw [List.filter_cons, List.filter_cons, ih]

/-- Correction deletes exactly the white space that reaches the end of its line: this is the whole
text that it gives, said position by position and without lines.  All other characters, the ends
of lines among them, stay as they are and in their order. -/
theorem correct_deletes_exactly_trailing (text : Text) :
    settings.correct text = text.deleteAt (text.trails settings.whitespace.contains) ∧
      (settings.correct text).filter Text.endsLine = text.filter Text.endsLine ∧
      (settings.correct text).filter (fun character => !settings.whitespace.contains character) =
        text.filter (fun character => !settings.whitespace.contains character) := by
  refine ⟨settings.correct_eq_deleteAt text, settings.filter_correct ?_ text,
    settings.filter_correct (by simp) text⟩
  intro character ends
  rcases Text.eq_or_endsLine_eq_false character with rfl | rfl | inside
  · simp
  · simp
  · simp [inside] at ends

end TrailingSpaces

end TidyLines
