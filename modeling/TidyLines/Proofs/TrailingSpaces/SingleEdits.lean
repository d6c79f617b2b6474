import TidyLines.Proofs.Rule.Locality
import TidyLines.Proofs.TrailingSpaces.Composition
import TidyLines.Proofs.TrailingSpaces.MergedLines
import TidyLines.Proofs.TrailingSpaces.Projection

/-!
# One replacement at a time

After a single replacement the text is scanned again, and its lines need not be what they were: a
blank line between a carriage return and its own line feed is gone.  All the same nothing is found
that was not there before, and what is left to do is what was left to do (`MendedAt`).  A step takes
one violation away and keeps the corrected text, so that a run of single replacements ends, in any
order, at the same text after the same number of steps.
-/

namespace TidyLines

namespace Line

/-- Whether a line that becomes empty goes into the last of the lines before it, since nothing is
left between a carriage return and a line feed. -/
def mergesBehind (matching : Char → Bool) (before : List Line) (line : Line) : Bool :=
  before.getLast?.any fun last => last.merges matching line

end Line

namespace TrailingSpaces

variable (settings : TrailingSpaces)

/-- The text after the replacement of one violation has the same corrected text, and in it the same
violations are found but for this one.  Those behind it stand as many bytes further forward as were
taken away, and a line further forward if two lines have become one. -/
structure MendedAt (text : Text) (violation : Violation) (mended : Text) : Prop where
  correct_eq : settings.correct mended = settings.correct text
  scan_eq : ∃ before line after earlier later,
    Line.split text = before ++ line :: after ∧ violation.location.line = before.length + 1 ∧
      settings.scan mended = earlier ++ later ∧
      settings.scan text = earlier ++ violation :: later.map fun other => other.moved
        (if Line.mergesBehind settings.whitespace.contains before line then 1 else 0)
        violation.location.length

/-- One text comes from another one by a replacement that a scan suggests. -/
def MendsOne (text mended : Text) : Prop :=
  ∃ violation ∈ settings.scan text, ∃ replacement,
    violation.replacement? = some replacement ∧ mended = replacement.apply text

/-- One text comes from another one by a number of such replacements, with a scan before each. -/
inductive MendsIn : Nat → Text → Text → Prop
  | done (text : Text) : MendsIn 0 text text
  | step {count : Nat} {text next mended : Text} (first : settings.MendsOne text next)
      (others : MendsIn count next mended) : MendsIn (count + 1) text mended

/-! ## Correcting lines that fuse -/

theorem mergesBehind_eq_fusesBehind (before : List Line) (line : Line) :
    Line.mergesBehind settings.whitespace.contains before line =
      Line.fusesBehind before (settings.correctLine line) := by
  simp only [Line.mergesBehind, Line.fusesBehind, Line.merges_eq_fuses, correctLine_eq_trim]
  rfl

theorem join_map_correctLine_fuseOnto (line : Line) (others : List Line) :
    Line.join ((Line.fuseOnto line others).map settings.correctLine) =
      (settings.correctLine line).text ++ Line.join (others.map settings.correctLine) := by
  cases others with
  | nil => simp [Line.fuseOnto, Line.text]
  | cons next others =>
      rw [Line.fuseOnto]
      split
      next fused =>
        obtain ⟨returns, empty, feeds⟩ := (Line.fuses_iff _ _).mp fused
        simp [correctLine, keep, Line.text, Terminator.text, returns, empty, feeds]
      next => rw [List.map_cons, Line.join_cons, ← Line.text]

theorem join_map_correctLine_fuse (lines : List Line) :
    Line.join ((Line.fuse lines).map settings.correctLine) =
      Line.join (lines.map settings.correctLine) := by
  induction lines with
  | nil => rfl
  | cons line others ih =>
      rw [Line.fuse_cons, join_map_correctLine_fuseOnto, ih, List.map_cons, Line.join_cons,
        Line.text]

/-- Lines can be corrected before they are joined, also those that fuse then. -/
theorem correct_join {lines : List Line} (delimited : Line.Delimited lines) :
    settings.correct (Line.join lines) = Line.join (lines.map settings.correctLine) := by
  rw [correct, Line.split_join delimited, join_map_correctLine_fuse]

@[simp]
theorem keep_keep (content : Text) :
    settings.keep (settings.keep content) = settings.keep content := by
  rw [keep, keep, Text.dropTrailing_eq_rdropWhile, Text.dropTrailing_eq_rdropWhile,
    List.rdropWhile_idempotent]

theorem place?_correctLine (file : Path) (line : Line) (number offset : Nat) :
    settings.place? file { settings.correctLine line with number, offset } = none := by
  simp [place?, correctLine]

theorem delimited_correctLine {before after : List Line} {line : Line}
    (delimited : Line.Delimited (before ++ line :: after)) :
    Line.Delimited (before ++ settings.correctLine line :: after) := by
  have shorter := settings.keep_subset line.content
  rw [Line.delimited_append_iff (by simp)] at delimited ⊢
  refine ⟨delimited.1, ?_⟩
  cases delimited.2 with
  | last unbroken unterminated =>
      exact .last (fun character member => unbroken character (shorter member)) unterminated
  | cons unbroken terminated rest =>
      exact .cons (fun character member => unbroken character (shorter member)) terminated rest

/-! ## One step -/

theorem exists_line_of_mem_scan {text : Text} {violation : Violation}
    (reported : violation ∈ settings.scan text) :
    ∃ before line after place, Line.split text = before ++ line :: after ∧
      settings.place? .empty { line with
        number := 1 + before.length
        offset := Text.byteLength (Line.join before) } = some place ∧
      violation = settings.violationAt place := by
  rw [scan_eq_map_places] at reported
  obtain ⟨place, isPlace, rfl⟩ := List.mem_map.mp reported
  obtain ⟨placed, isLine, found⟩ := List.mem_filterMap.mp isPlace
  obtain ⟨before, line, after, splitText, rfl⟩ := PlacedLine.exists_of_mem_placeFrom isLine
  rw [Nat.zero_add] at found
  exact ⟨before, line, after, place, splitText, found, rfl⟩

section Lines

variable {before : List Line} {line : Line} {place : Location}
  (found : settings.place? .empty { line with
    number := 1 + before.length
    offset := Text.byteLength (Line.join before) } = some place)

include found

theorem apply_join (after : List Line) :
    Replacement.apply ⟨place, ""⟩ (Line.join (before ++ line :: after)) =
      Line.join (before ++ settings.correctLine line :: after) := by
  have applied := settings.apply_place? .empty (Line.join before) (Line.join after)
    (1 + before.length) line
  rw [found] at applied
  rw [Line.join_append, Line.join_append, Line.join_cons, Line.join_cons, ← Line.text, ← Line.text]
  exact applied

theorem scan_of_split_eq {text : Text} {after : List Line}
    (splitText : Line.split text = before ++ line :: after) :
    settings.scan text =
      (settings.places .empty (PlacedLine.placeFrom 1 0 before)).map settings.violationAt ++
        settings.violationAt place ::
          (settings.places .empty (PlacedLine.placeFrom (1 + before.length + 1)
            (Text.byteLength (Line.join before) + Text.byteLength line.text) after)).map
              settings.violationAt := by
  rw [scan_eq_map_places, PlacedLine.split, splitText, places_placeFrom_append,
    places_placeFrom_cons, Nat.zero_add, found, List.map_append, List.map_append]
  rfl

theorem byteLength_correctLine :
    place.length + Text.byteLength (settings.correctLine line).text =
      Text.byteLength line.text := by
  have total := settings.length_sum_place? .empty (1 + before.length)
    (Text.byteLength (Line.join before)) line
  rwa [found, Option.toList_some, List.map_singleton, List.sum_singleton] at total

end Lines

theorem scan_join_correctLine {before after : List Line} {line : Line}
    (delimited : Line.Delimited (before ++ line :: after))
    (apart : (before ++ line :: after).IsChain fun line next => line.fuses next = false) :
    settings.scan (Line.join (before ++ settings.correctLine line :: after)) =
      (settings.places .empty (PlacedLine.placeFrom 1 0 before)).map settings.violationAt ++
        (settings.places .empty (PlacedLine.placeFrom
          (1 + before.length +
            if Line.mergesBehind settings.whitespace.contains before line then 0 else 1)
          (Text.byteLength (Line.join before) +
            Text.byteLength (settings.correctLine line).text) after)).map settings.violationAt := by
  obtain ⟨beforeApart, afterApart, -⟩ := List.isChain_append.mp apart
  -- The line keeps its terminator, so that it stays apart from what comes behind it.
  have mendedApart : (settings.correctLine line :: after).IsChain
      fun line next => line.fuses next = false := by
    rw [List.isChain_cons] at afterApart ⊢
    exact afterApart
  rw [scan_eq_map_places, PlacedLine.split,
    Line.split_join (settings.delimited_correctLine delimited),
    settings.places_fuse .empty 1 0 beforeApart mendedApart, place?_correctLine,
    mergesBehind_eq_fusesBehind, Nat.zero_add, List.map_append]
  rfl

theorem mendedAt_of_mem_scan {text : Text} {violation : Violation}
    (reported : violation ∈ settings.scan text) :
    ∃ replacement, violation.replacement? = some replacement ∧
      settings.MendedAt text violation (replacement.apply text) := by
  obtain ⟨before, line, after, place, splitText, found, rfl⟩ :=
    settings.exists_line_of_mem_scan reported
  have whole := Line.join_split text
  have delimited := Line.delimited_split text
  have apart := Line.isChain_split text
  rw [splitText] at whole delimited apart
  have mendedEq := settings.apply_join found after
  have bytes := settings.byteLength_correctLine found
  rw [whole] at mendedEq
  refine ⟨⟨place, ""⟩, rfl, ?_, ?_⟩
  · rw [mendedEq, settings.correct_join (settings.delimited_correctLine delimited), ← whole,
      settings.correct_join delimited]
    simp [correctLine]
  · refine ⟨before, line, after, _, _, splitText, ?_,
      mendedEq ▸ settings.scan_join_correctLine delimited apart, ?_⟩
    · exact (settings.file_line_of_place? found).2.trans (Nat.add_comm 1 before.length)
    · have number : 1 + before.length + 1 =
          (1 + before.length +
            if Line.mergesBehind settings.whitespace.contains before line then 0 else 1) +
              if Line.mergesBehind settings.whitespace.contains before line then 1 else 0 := by
        split <;> rfl
      have offset : Text.byteLength (Line.join before) + Text.byteLength line.text =
          Text.byteLength (Line.join before) +
            Text.byteLength (settings.correctLine line).text + place.length := by
        omega
      rw [settings.scan_of_split_eq found splitText, number, offset, places_moved,
        map_moved_violationAt]
      rfl

theorem mendsOne_iff (text : Text) :
    (∃ next, settings.MendsOne text next) ↔ 0 < (settings.scan text).length := by
  rw [List.length_pos_iff_exists_mem]
  constructor
  · rintro ⟨next, violation, reported, -⟩
    exact ⟨violation, reported⟩
  · rintro ⟨violation, reported⟩
    obtain ⟨replacement, suggested, -⟩ := settings.mendedAt_of_mem_scan reported
    exact ⟨_, violation, reported, replacement, suggested, rfl⟩

theorem MendsOne.decreases {text next : Text} (step : settings.MendsOne text next) :
    (settings.scan next).length + 1 = (settings.scan text).length ∧
      settings.correct next = settings.correct text := by
  obtain ⟨violation, reported, replacement, suggested, rfl⟩ := step
  obtain ⟨same, suggestedToo, correctEq, before, line, after, earlier, later, -, -, scanNext,
    scanText⟩ := settings.mendedAt_of_mem_scan reported
  obtain rfl := Option.some.inj (suggested.symm.trans suggestedToo)
  refine ⟨?_, correctEq⟩
  rw [scanNext, scanText]
  simp [Nat.add_assoc]

/-! ## Runs of steps -/

theorem MendsIn.decreases {count : Nat} {text mended : Text}
    (run : settings.MendsIn count text mended) :
    (settings.scan mended).length + count = (settings.scan text).length ∧
      settings.correct mended = settings.correct text := by
  induction run with
  | done => exact ⟨rfl, rfl⟩
  | step first others ih =>
      obtain ⟨oneLess, correctEq⟩ := first.decreases
      exact ⟨by omega, ih.2.trans correctEq⟩

theorem mendsIn_correct (text : Text) :
    settings.MendsIn (settings.scan text).length text (settings.correct text) := by
  induction ahead : (settings.scan text).length generalizing text with
  | zero =>
      have clean := (settings.scan_eq_nil_iff text).mp (List.eq_nil_of_length_eq_zero ahead)
      rw [clean]
      exact .done text
  | succ count ih =>
      obtain ⟨next, step⟩ := (settings.mendsOne_iff text).mpr (by omega)
      obtain ⟨oneLess, correctEq⟩ := step.decreases
      have others := ih next (by omega)
      rw [correctEq] at others
      exact .step step others

/-- Violations can be mended one at a time, with a scan after each.  Each replacement leaves the
corrected text and all other violations as they were, but for their places.  So replacements can be
chosen in any order: a run can go on as long as it has carried out fewer of them than there were
violations at first, and when it has carried out as many, the text is the corrected text. -/
theorem single_edits_confluent (text : Text) :
    (∀ violation ∈ settings.scan text, ∃ replacement,
        violation.replacement? = some replacement ∧
          settings.MendedAt text violation (replacement.apply text)) ∧
      settings.MendsIn (settings.scan text).length text (settings.correct text) ∧
      ∀ count mended, settings.MendsIn count text mended →
        count ≤ (settings.scan text).length ∧
          ((∃ next, settings.MendsOne mended next) ↔ count < (settings.scan text).length) ∧
          (count = (settings.scan text).length → mended = settings.correct text) := by
  refine ⟨fun violation => settings.mendedAt_of_mem_scan, settings.mendsIn_correct text, ?_⟩
  intro count mended run
  obtain ⟨fewer, correctEq⟩ := run.decreases
  rw [mendsOne_iff]
  refine ⟨by omega, by omega, ?_⟩
  intro allDone
  have clean : settings.scan mended = [] := List.eq_nil_of_length_eq_zero (by omega)
  rw [← correctEq, (settings.scan_eq_nil_iff mended).mp clean]

-- Mending the blank line brings the violation behind it from the third line to the second.
example :
    (scan {} ['\r', ' ', '\n', 'x', ' ']).map (fun found => found.location.line) = [2, 3] ∧
      (scan {} ['\r', '\n', 'x', ' ']).map (fun found => found.location.line) = [2] := by
  decide

end TrailingSpaces

end TidyLines
