import TidyLines.Proofs.TrailingSpaces.LineStructure

/-!
# The lines that correction merges

The lines of a corrected text are the trimmed lines, fused where that brings a carriage return and a
line feed together (`TrailingSpaces.split_correct`).  This file says the same in one pass over the
lines of the text as it was: two neighbours become one exactly where a carriage return ends the
first and the second is blank up to its line feed (`Line.mergeBlank`).  No line takes part in two
such pairs, so that each of them costs one line (`Line.length_mergeBlank`).
-/

namespace TidyLines

namespace Line

variable (matching : Char → Bool)

/-- A line without the matching characters at the end of its content. -/
def trim (line : Line) : Line := ⟨line.content.rdropWhile matching, line.terminator⟩

/-- Whether a carriage return ends a line and the next one has nothing but matching characters
before its line feed. -/
def merges (line next : Line) : Bool :=
  line.terminator == .carriageReturn && next.content.all matching && next.terminator == .lineFeed

/-- Lines trimmed one by one, except that two which merge become one. -/
def mergeBlank : List Line → List Line
  | [] => []
  | [line] => [trim matching line]
  | line :: next :: others =>
    if merges matching line next then
      ⟨line.content.rdropWhile matching, .carriageReturnLineFeed⟩ :: mergeBlank others
    else trim matching line :: mergeBlank (next :: others)

/-- The number of neighbours that merge. -/
def mergingPairs (lines : List Line) : Nat :=
  (lines.zip lines.tail).countP fun pair => merges matching pair.1 pair.2

theorem merges_eq_fuses (line next : Line) :
    merges matching line next = (trim matching line).fuses (trim matching next) := by
  have blankIff : next.content.all matching = true ↔ (trim matching next).content = [] := by
    rw [trim, List.rdropWhile_eq_nil_iff, List.all_eq_true]
  rw [Bool.eq_iff_iff, fuses_iff, merges, Bool.and_eq_true, Bool.and_eq_true, blankIff,
    beq_iff_eq, beq_iff_eq, and_assoc]
  rfl

theorem terminator_of_merges {line next : Line} (merging : merges matching line next = true) :
    next.terminator = .lineFeed := by
  simp only [merges, Bool.and_eq_true, beq_iff_eq] at merging
  exact merging.2

/-- Merging in one pass does what trimming and fusing do. -/
theorem fuse_map_trim (lines : List Line) :
    fuse (lines.map (trim matching)) = mergeBlank matching lines := by
  induction lines using mergeBlank.induct matching with
  | case1 => rfl
  | case2 line => rfl
  | case3 line next others merging ih =>
      -- The second line ends in a line feed, so that it has not fused with those behind it.
      have feeds : (trim matching next).terminator ≠ .carriageReturn := by
        simp [trim, terminator_of_merges matching merging]
      have fused := merging
      rw [merges_eq_fuses] at fused
      rw [mergeBlank, if_pos merging, List.map_cons, List.map_cons, fuse_cons, fuse_cons,
        fuseOnto_of_terminator_ne feeds, fuseOnto_of_fuses fused, ih]
      rfl
  | case4 line next others apart ih =>
      have unfused := Bool.eq_false_iff.mpr apart
      rw [merges_eq_fuses] at unfused
      rw [mergeBlank, if_neg apart, ← ih, List.map_cons, List.map_cons, fuse_cons, fuse_cons,
        fuseOnto_fuseOnto_of_apart unfused]

theorem mergingPairs_cons_cons (line next : Line) (others : List Line) :
    mergingPairs matching (line :: next :: others) =
      mergingPairs matching (next :: others) + if merges matching line next then 1 else 0 := by
  rw [mergingPairs, List.tail_cons, List.zip_cons_cons, List.countP_cons]
  rfl

/-- Only a line that ends in a carriage return is the first of a pair that merges. -/
theorem mergingPairs_cons_of_terminator_ne {line : Line}
    (noReturn : line.terminator ≠ .carriageReturn) (others : List Line) :
    mergingPairs matching (line :: others) = mergingPairs matching others := by
  cases others with
  | nil => rfl
  | cons next others =>
      have apart : merges matching line next = false := by simp [merges, noReturn]
      rw [mergingPairs_cons_cons, apart]
      rfl

/-- Each pair that merges costs one line. -/
theorem length_mergeBlank (lines : List Line) :
    (mergeBlank matching lines).length + mergingPairs matching lines = lines.length := by
  induction lines using mergeBlank.induct matching with
  | case1 => rfl
  | case2 line => rfl
  | case3 line next others merging ih =>
      have feeds : next.terminator ≠ .carriageReturn := by
        simp [terminator_of_merges matching merging]
      rw [mergeBlank, if_pos merging, mergingPairs_cons_cons, if_pos merging,
        mergingPairs_cons_of_terminator_ne matching feeds, List.length_cons, List.length_cons,
        List.length_cons]
      omega
  | case4 line next others apart ih =>
      rw [mergeBlank, if_neg apart, mergingPairs_cons_cons, if_neg apart]
      simp only [List.length_cons] at ih ⊢
      omega

end Line

namespace TrailingSpaces

variable (settings : TrailingSpaces)

theorem correctLine_eq_trim :
    settings.correctLine = Line.trim settings.whitespace.contains := by
  funext line
  rw [correctLine, keep, Text.dropTrailing_eq_rdropWhile, Line.trim]

/-- The lines of a corrected text are those of the text, each with its content trimmed, except that
a line which ends in a carriage return and a blank next line which ends in a line feed are one line,
with both as its terminator.  So a text loses one line for each such pair and no others. -/
theorem split_correct_merges_blank (text : Text) :
    Line.split (settings.correct text) =
        Line.mergeBlank settings.whitespace.contains (Line.split text) ∧
      (Line.split (settings.correct text)).length +
          Line.mergingPairs settings.whitespace.contains (Line.split text) =
        (Line.split text).length := by
  have linesEq : Line.split (settings.correct text) =
      Line.mergeBlank settings.whitespace.contains (Line.split text) := by
    rw [split_correct, correctLine_eq_trim, Line.fuse_map_trim]
  refine ⟨linesEq, ?_⟩
  rw [linesEq, Line.length_mergeBlank]

example :
    Line.split (correct {} ['a', '\r', ' ', '\n', 'b', ' ']) =
      [⟨['a'], .carriageReturnLineFeed⟩, ⟨['b'], .endOfText⟩] := by decide

end TrailingSpaces

end TidyLines
