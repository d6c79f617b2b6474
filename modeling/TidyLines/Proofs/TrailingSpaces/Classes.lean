import TidyLines.Proofs.Analyzer.Agreement

/-!
# More white space

A class of white space may hold all characters of another one.  The run at the end of a line is then
at least as long for the wider class, and everything the narrower one reports is reported for the
wider one too, from the same place or from further left (`Location.Widens`).  Correcting a text for
both, in whatever order, is correcting it for the wider one.
-/

namespace TidyLines

/-- A place reaches as far as another one in the same line, and starts there or before it. -/
structure Location.Widens (wider place : Location) : Prop where
  line_eq : wider.line = place.line
  end_eq : wider.offset + wider.length = place.offset + place.length
  column_le : wider.column ≤ place.column
  length_le : place.length ≤ wider.length

theorem Whitespace.unicode_contains_of_ascii (character : Char)
    (isAscii : Whitespace.ascii.contains character = true) :
    Whitespace.unicode.contains character = true := by
  simp only [contains, Bool.or_eq_true, beq_iff_eq] at isAscii
  rcases isAscii with rfl | rfl <;> decide

namespace TrailingSpaces

section Covers

variable {narrow wide : TrailingSpaces}
  (covers : ∀ character, narrow.whitespace.contains character = true →
    wide.whitespace.contains character = true)

include covers

theorem keep_prefix_of_covers (content : Text) : wide.keep content <+: narrow.keep content := by
  obtain ⟨⟨run, contentEq, allNarrow⟩, -⟩ :=
    Text.isTrimmed_dropTrailing narrow.whitespace.contains content
  have allWide : ∀ character ∈ run, wide.whitespace.contains character = true :=
    fun character member => covers character (allNarrow character member)
  rw [← keep] at contentEq
  calc
    wide.keep content = wide.keep (narrow.keep content) := by
      conv_lhs => rw [contentEq]
      exact Text.dropTrailing_append_of_all _ allWide _
    _ <+: narrow.keep content := Text.dropTrailing_prefix _ _

theorem exists_widens_of_place? (file : Path) {line : PlacedLine} {place : Location}
    (found : narrow.place? file line = some place) :
    ∃ wider, wide.place? file line = some wider ∧ wider.Widens place := by
  obtain ⟨run, contentEq, placeEq⟩ := narrow.place?_eq file line
  obtain ⟨wideRun, wideContentEq, widePlaceEq⟩ := wide.place?_eq file line
  obtain ⟨between, keptEq⟩ := keep_prefix_of_covers covers line.content
  obtain rfl : wideRun = between ++ run := by
    rw [← keptEq, List.append_assoc] at contentEq
    exact List.append_cancel_left (wideContentEq.symm.trans contentEq)
  rw [found] at placeEq
  split at placeEq
  · contradiction
  next nonempty =>
    obtain rfl := Option.some.inj placeEq
    rw [if_neg (by simp [nonempty])] at widePlaceEq
    refine ⟨_, widePlaceEq, rfl, ?_, ?_, ?_⟩
    · rw [← keptEq]
      simp [Nat.add_assoc]
    · simp [← keptEq]
    · simp

theorem sublistForall₂_widens_places (file : Path) (lines : List PlacedLine) :
    List.SublistForall₂ (fun place wider => wider.Widens place)
      (narrow.places file lines) (wide.places file lines) := by
  induction lines with
  | nil => exact .nil
  | cons line others ih =>
      rw [places, places, List.filterMap_cons, List.filterMap_cons]
      cases found : narrow.place? file line with
      | none =>
          cases wide.place? file line with
          | none => exact ih
          | some wider => exact .cons_right ih
      | some place =>
          obtain ⟨wider, widerFound, widens⟩ := exists_widens_of_place? covers file found
          rw [widerFound]
          exact .cons widens ih

theorem sublistForall₂_widens_scan (text : Text) :
    List.SublistForall₂ (fun first second => second.location.Widens first.location)
      (narrow.scan text) (wide.scan text) := by
  rw [scan_eq_map_places, scan_eq_map_places, List.sublistForall₂_map_left_iff,
    List.sublistForall₂_map_right_iff]
  exact sublistForall₂_widens_places covers .empty (PlacedLine.split text)

/-- A text without white space of a class at the ends of its lines has none of a smaller class. -/
theorem correct_of_covers_correct (text : Text) :
    narrow.correct (wide.correct text) = wide.correct text := by
  have nothing := (wide.scan_eq_nil_iff _).mpr (wide.correct_correct text)
  obtain ⟨found, related, among⟩ :=
    List.sublistForall₂_iff.mp (sublistForall₂_widens_scan covers (wide.correct text))
  rw [nothing, List.sublist_nil] at among
  rw [among] at related
  exact (narrow.scan_eq_nil_iff _).mp (List.forall₂_nil_right_iff.mp related)

end Covers

/-- The Unicode class of white space refines the ASCII class.  Corrections for both, one after the
other in either order, give the correction for Unicode, and so do the two rules when a text is
formatted.  What is reported for ASCII is reported for Unicode in the same order, each time in the
same line, up to the same byte, and from the same column or from further left. -/
theorem unicode_refines_ascii (severity other : Severity) (text : Text) (path : Path) :
    let ascii : TrailingSpaces := ⟨.ascii, severity⟩
    let unicode : TrailingSpaces := ⟨.unicode, other⟩
    unicode.correct (ascii.correct text) = unicode.correct text ∧
      ascii.correct (unicode.correct text) = unicode.correct text ∧
      List.SublistForall₂ (fun first second => second.location.Widens first.location)
        (ascii.scan text) (unicode.scan text) ∧
      ([ascii.rule, unicode.rule].foldl (Analyzer.fixStep path) (text, 0)).1 =
        unicode.correct text ∧
      ([unicode.rule, ascii.rule].foldl (Analyzer.fixStep path) (text, 0)).1 =
        unicode.correct text := by
  intro ascii unicode
  have covers : ∀ character, ascii.whitespace.contains character = true →
      unicode.whitespace.contains character = true := Whitespace.unicode_contains_of_ascii
  have asciiFirst := correct_correct_of_covers covers text
  have unicodeFirst := correct_of_covers_correct covers text
  refine ⟨asciiFirst, unicodeFirst, sublistForall₂_widens_scan covers text, ?_, ?_⟩
  · rw [List.foldl_cons, List.foldl_cons, List.foldl_nil, Analyzer.fixStep_rule,
      Analyzer.fixStep_rule, asciiFirst]
  · rw [List.foldl_cons, List.foldl_cons, List.foldl_nil, Analyzer.fixStep_rule,
      Analyzer.fixStep_rule, unicodeFirst]

end TrailingSpaces

end TidyLines
