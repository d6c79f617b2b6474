import Mathlib.Data.List.Forall2
import TidyLines.Proofs.Line.Splitting
import TidyLines.Proofs.Text.Trimming
import TidyLines.Proofs.TrailingSpaces.Edits

/-!
# When correction keeps the lines

Correction trims the lines of a text one by one, and one would expect the corrected text to have
the trimmed lines.  A blank line can stand in the way: where nothing but white space parts a
carriage return from a line feed, the two become one terminator as soon as the white space is gone,
and a line is lost.  This file proves that nothing else can happen (`split_correct`), and that the
lines are kept exactly in the texts without such a place (`keepsLines_iff`).
-/

namespace TidyLines

/-- The second line is the first one with its content trimmed. -/
structure Line.IsTrimmed (matching : Char → Bool) (line trimmed : Line) : Prop where
  terminator_eq : trimmed.terminator = line.terminator
  content_trimmed : Text.IsTrimmed matching line.content trimmed.content

/-- Somewhere in a text a run of matching characters, and nothing else, stands between a carriage
return and a line feed. -/
def Text.PartsReturnFromFeed (matching : Char → Bool) (text : Text) : Prop :=
  ∃ run : Text, run ≠ [] ∧ (∀ character ∈ run, matching character = true) ∧
    '\r' :: (run ++ ['\n']) <:+: text

namespace TrailingSpaces

variable (settings : TrailingSpaces)

/-- Correction keeps the lines of a text: line by line the terminator is the same and the content
is trimmed, so that as many lines change as a scan reports. -/
structure KeepsLines (text : Text) : Prop where
  lines_trimmed : List.Forall₂ (Line.IsTrimmed settings.whitespace.contains)
    (Line.split text) (Line.split (settings.correct text))
  changed_eq : ((Line.split text).zip (Line.split (settings.correct text))).countP
    (fun pair => pair.1.content ≠ pair.2.content) = (settings.scan text).length

/-! ## The lines of a corrected text -/

theorem isTrimmed_iff_eq_correctLine (line trimmed : Line) :
    line.IsTrimmed settings.whitespace.contains trimmed ↔ settings.correctLine line = trimmed := by
  constructor
  · rintro ⟨terminatorEq, contentTrimmed⟩
    rw [correctLine, keep, ← (Text.isTrimmed_iff _).mp contentTrimmed, ← terminatorEq]
  · rintro rfl
    exact ⟨rfl, Text.isTrimmed_dropTrailing settings.whitespace.contains line.content⟩

theorem keep_subset (content : Text) : settings.keep content ⊆ content :=
  (Text.dropTrailing_prefix settings.whitespace.contains content).subset

theorem delimited_map_correctLine {lines : List Line} (delimited : Line.Delimited lines) :
    Line.Delimited (lines.map settings.correctLine) := by
  have terminatorEq (line : Line) : (settings.correctLine line).terminator = line.terminator :=
    rfl
  exact delimited.map terminatorEq fun line => settings.keep_subset line.content

/-- The lines of a corrected text are the trimmed lines, fused where a carriage return now meets a
line feed. -/
theorem split_correct (text : Text) :
    Line.split (settings.correct text) =
      Line.fuse ((Line.split text).map settings.correctLine) :=
  Line.split_join (settings.delimited_map_correctLine (Line.delimited_split text))

theorem forall₂_isTrimmed_iff (text : Text) :
    List.Forall₂ (Line.IsTrimmed settings.whitespace.contains)
        (Line.split text) (Line.split (settings.correct text)) ↔
      ((Line.split text).map settings.correctLine).IsChain
        fun line next => line.fuses next = false := by
  have trimmedEq : Line.IsTrimmed settings.whitespace.contains =
      fun line trimmed => settings.correctLine line = trimmed := by
    funext line trimmed
    exact propext (settings.isTrimmed_iff_eq_correctLine line trimmed)
  rw [trimmedEq, ← List.forall₂_map_left_iff, List.forall₂_eq_eq_eq, split_correct]
  constructor
  · intro unfused
    rw [← Line.length_fuse_eq_iff, ← unfused]
  · intro apart
    exact (Line.fuse_eq_self apart).symm

/-! ## White space between a carriage return and a line feed -/

theorem parts_cons (matching : Char → Bool) (character : Char) (rest : Text) :
    Text.PartsReturnFromFeed matching (character :: rest) ↔
      (character = '\r' ∧ ∃ run : Text, run ≠ [] ∧
        (∀ other ∈ run, matching other = true) ∧ run ++ ['\n'] <+: rest) ∨
      Text.PartsReturnFromFeed matching rest := by
  simp only [Text.PartsReturnFromFeed, List.infix_cons_iff, List.cons_prefix_cons]
  constructor
  · rintro ⟨run, nonempty, allMatching, ⟨returns, follows⟩ | inside⟩
    · exact Or.inl ⟨returns.symm, run, nonempty, allMatching, follows⟩
    · exact Or.inr ⟨run, nonempty, allMatching, inside⟩
  · rintro (⟨returns, run, nonempty, allMatching, follows⟩ | ⟨run, nonempty, allMatching, inside⟩)
    · exact ⟨run, nonempty, allMatching, Or.inl ⟨returns.symm, follows⟩⟩
    · exact ⟨run, nonempty, allMatching, Or.inr inside⟩

theorem endsLine_eq_false_of_contains {character : Char}
    (isSpace : settings.whitespace.contains character = true) :
    Text.endsLine character = false := by
  rcases Text.eq_or_endsLine_eq_false character with rfl | rfl | inside
  · simp at isSpace
  · simp at isSpace
  · exact inside

/-- A text begins with white space up to a line feed exactly when its first line is blank without
being empty and ends in a line feed. -/
theorem exists_run_prefix_iff {text content : Text} {terminator : Terminator} {others : List Line}
    (splitText : Line.split text = ⟨content, terminator⟩ :: others) :
    (∃ run : Text, run ≠ [] ∧ (∀ other ∈ run, settings.whitespace.contains other = true) ∧
        run ++ ['\n'] <+: text) ↔
      content ≠ [] ∧ settings.keep content = [] ∧ terminator = .lineFeed := by
  rw [keep, Text.dropTrailing_eq_nil_iff]
  constructor
  · rintro ⟨run, nonempty, allSpace, after, rfl⟩
    have unbroken : ∀ other ∈ run, Text.endsLine other = false := fun other member =>
      settings.endsLine_eq_false_of_contains (allSpace other member)
    have firstLine := Line.split_text_append (show ∀ other ∈
      (⟨run, .lineFeed⟩ : Line).content, Text.endsLine other = false from unbroken) (by simp) after
    rw [Line.fuseOnto_of_terminator_ne (by simp), Line.text] at firstLine
    obtain ⟨rfl, rfl⟩ := Line.mk.inj (List.cons.inj (splitText.symm.trans firstLine)).1
    exact ⟨nonempty, allSpace, rfl⟩
  · rintro ⟨nonempty, allSpace, rfl⟩
    refine ⟨content, nonempty, allSpace, Line.join others, ?_⟩
    rw [← Line.join_split text, splitText, Line.join_cons]
    rfl

/-- The trimmed lines of a text stay apart exactly when no white space alone stands between a
carriage return and a line feed. -/
theorem isChain_map_correctLine_iff (text : Text) :
    ((Line.split text).map settings.correctLine).IsChain
        (fun line next => line.fuses next = false) ↔
      ¬ Text.PartsReturnFromFeed settings.whitespace.contains text := by
  induction text with
  | nil =>
      constructor
      · rintro - ⟨run, -, -, inside⟩
        simpa using inside.length_le
      · exact fun _ => .singleton _
  | cons character rest ih =>
      obtain ⟨terminator, others, splitRest⟩ := Line.exists_split_eq rest
      rw [parts_cons, settings.exists_run_prefix_iff splitRest, not_or, ← ih]
      rcases Text.eq_or_endsLine_eq_false character with rfl | rfl | inside
      · rw [Line.split_cons, Line.push_lineFeed (Line.split_ne_nil rest), List.map_cons,
          Line.isChain_cons_of_terminator_ne (by simp [correctLine])]
        simp
      · rw [Line.split_cons, Line.push_carriageReturn (Line.split_ne_nil rest), splitRest,
          Line.fuseOnto]
        split
        next fused =>
          obtain ⟨-, emptyContent, rfl⟩ := (Line.fuses_iff _ _).mp fused
          dsimp only at emptyContent
          rw [List.map_cons, List.map_cons,
            Line.isChain_cons_of_terminator_ne (by simp [correctLine]),
            Line.isChain_cons_of_terminator_ne (by simp [correctLine])]
          simp [emptyContent]
        next apart =>
          rw [List.map_cons, List.map_cons, List.isChain_cons_cons]
          refine and_congr ?_ Iff.rfl
          rw [Line.fuses_iff] at apart
          rw [← Bool.not_eq_true, Line.fuses_iff]
          constructor
          · rintro keptApart ⟨-, -, blank, feeds⟩
            exact keptApart ⟨rfl, blank, feeds⟩
          · rintro noBlank ⟨-, blank, feeds⟩
            exact noBlank ⟨rfl, fun empty => apart ⟨rfl, empty, feeds⟩, blank, feeds⟩
      · have pushed := Line.push_of_not_endsLine inside ⟨Text.firstContent rest, terminator⟩ others
        have noReturn := (Text.ne_of_endsLine_eq_false inside).2
        rw [Line.split_cons, splitRest, pushed, List.map_cons, List.map_cons, List.isChain_cons,
          List.isChain_cons]
        simp [noReturn, correctLine, Line.fuses]

/-! ## How many lines change -/

theorem isSome_place? (file : Path) (line : PlacedLine) :
    (settings.place? file line).isSome = decide (line.content ≠ settings.keep line.content) := by
  obtain ⟨run, contentEq, placeEq⟩ := settings.place?_eq file line
  have emptyIff : run = [] ↔ line.content = settings.keep line.content := by
    constructor
    · rintro rfl
      rwa [List.append_nil] at contentEq
    · intro unchanged
      have lengthEq := congrArg List.length contentEq
      rw [List.length_append, ← unchanged] at lengthEq
      exact List.eq_nil_of_length_eq_zero (by omega)
  rw [placeEq]
  split
  next empty => simpa using emptyIff.mp empty
  next nonempty => simpa using mt emptyIff.mpr nonempty

/-- A scan reports as many lines as trimming changes. -/
theorem length_scan (text : Text) :
    (settings.scan text).length =
      (Line.split text).countP fun line => line.content ≠ settings.keep line.content := by
  rw [scan_eq_map_places, List.length_map, places, List.length_filterMap_eq_countP]
  simp only [isSome_place?]
  conv_rhs => rw [← PlacedLine.toLine_placeFrom 1 0 (Line.split text), List.countP_map]
  rfl

/-- Correction keeps the lines of a text exactly when white space alone never stands between a
carriage return and a line feed. -/
theorem keepsLines_iff (text : Text) :
    settings.KeepsLines text ↔ ¬ Text.PartsReturnFromFeed settings.whitespace.contains text := by
  rw [← isChain_map_correctLine_iff]
  constructor
  · rintro ⟨linesTrimmed, -⟩
    exact (settings.forall₂_isTrimmed_iff text).mp linesTrimmed
  · intro apart
    refine ⟨(settings.forall₂_isTrimmed_iff text).mpr apart, ?_⟩
    have paired : (Line.split text).zip ((Line.split text).map settings.correctLine) =
        (Line.split text).map fun line => (line, settings.correctLine line) := by
      rw [← List.zip_map', List.map_id']
    rw [split_correct, Line.fuse_eq_self apart, paired, List.countP_map, length_scan]
    rfl

/-- A blank line between a carriage return and a line feed is lost, and the two become one
terminator: three lines are two after correction. -/
theorem not_keepsLines_return_space_feed :
    ¬ KeepsLines { whitespace := .ascii } ['\r', ' ', '\n'] := by
  rintro ⟨linesTrimmed, -⟩
  have lengthEq := linesTrimmed.length_eq
  revert lengthEq
  decide

end TrailingSpaces

end TidyLines
