import TidyLines.Proofs.TrailingSpaces.LineStructure

/-!
# What rules look at

The analysis shows a file to the rules in two ways, with its full path and with the path under which
it is reported.  This file names what it takes for both to come out alike, and shows that the rule
against trailing white space has what it takes.
-/

namespace TidyLines

/-- The same place of another file. -/
def Location.inFile (file : Path) (location : Location) : Location := { location with file }

/-- The same advice for another file. -/
def Suggestion.inFile (file : Path) (suggestion : Suggestion) : Suggestion :=
  { suggestion with replacement := suggestion.replacement.map fun replacement =>
      { replacement with location := replacement.location.inFile file } }

/-- The same violation in another file. -/
def Violation.inFile (file : Path) (violation : Violation) : Violation :=
  { violation with
    location := violation.location.inFile file
    suggestion := violation.suggestion.map (Suggestion.inFile file) }

namespace Rule

/-- What a rule makes of a source depends on nothing but the text. -/
structure DependsOnText (rule : Rule) : Prop where
  length_check_eq : ∀ first second : Source, first.text = second.text →
    (rule.check first).length = (rule.check second).length
  fix_eq : ∀ first second : Source, first.text = second.text → rule.fix first = rule.fix second

/-- What a rule reports depends on the text and the relative path, and is reported under the
latter. -/
structure ReportsRelatively (rule : Rule) : Prop where
  check_eq : ∀ first second : Source, first.text = second.text →
    first.relativePath = second.relativePath → rule.check first = rule.check second
  file_eq : ∀ source, ∀ violation ∈ rule.check source,
    violation.location.file = source.relativePath

/-- What a rule makes of a source does not depend on how the path of the file is spelled, and what
it reports does only where the relative path is spelled in another way too. -/
structure IgnoresSpelling (rule : Rule) : Prop where
  check_eq : ∀ first second : Source, first.text = second.text →
    first.relativePath = second.relativePath → first.path.components = second.path.components →
      rule.check first = rule.check second
  length_check_eq : ∀ first second : Source, first.text = second.text →
    first.relativePath.components = second.relativePath.components →
      first.path.components = second.path.components →
        (rule.check first).length = (rule.check second).length
  fix_eq : ∀ first second : Source, first.text = second.text →
    first.relativePath.components = second.relativePath.components →
      first.path.components = second.path.components → rule.fix first = rule.fix second

/-- What a rule makes of a source depends on nothing but the text, and is reported under the
relative path. -/
structure LooksAtText (rule : Rule) : Prop where
  check_eq : ∀ first second : Source, first.text = second.text →
    rule.check second = (rule.check first).map (Violation.inFile second.relativePath)
  fix_eq : ∀ first second : Source, first.text = second.text → rule.fix first = rule.fix second

theorem LooksAtText.dependsOnText {rule : Rule} (looks : rule.LooksAtText) :
    rule.DependsOnText where
  length_check_eq first second sameText := by
    rw [looks.check_eq first second sameText, List.length_map]
  fix_eq := looks.fix_eq

theorem LooksAtText.reportsRelatively {rule : Rule} (looks : rule.LooksAtText) :
    rule.ReportsRelatively where
  check_eq first second sameText samePath := by
    rw [looks.check_eq first first rfl, looks.check_eq first second sameText, samePath]
  file_eq source violation member := by
    rw [looks.check_eq source source rfl] at member
    obtain ⟨original, -, rfl⟩ := List.mem_map.mp member
    rfl

theorem DependsOnText.ignoresSpelling {rule : Rule} (onText : rule.DependsOnText)
    (relative : rule.ReportsRelatively) : rule.IgnoresSpelling where
  check_eq first second sameText samePath _ := relative.check_eq first second sameText samePath
  length_check_eq first second sameText _ _ := onText.length_check_eq first second sameText
  fix_eq first second sameText _ _ := onText.fix_eq first second sameText

end Rule

namespace TrailingSpaces

variable (settings : TrailingSpaces)

theorem file_line_of_place? {file : Path} {line : PlacedLine} {place : Location}
    (found : settings.place? file line = some place) :
    place.file = file ∧ place.line = line.number := by
  simp only [place?, Option.ite_none_left_eq_some, Option.some.injEq] at found
  obtain ⟨-, rfl⟩ := found
  exact ⟨rfl, rfl⟩

theorem length_check (source : Source) :
    (settings.check source).length = (settings.scan source.text).length := by
  rw [check_eq_map_places, scan_eq_map_places, List.length_map, List.length_map, places, places,
    List.length_filterMap_eq_countP, List.length_filterMap_eq_countP]
  simp only [isSome_place?]
  rfl

theorem map_inFile_places (file other : Path) (lines : List PlacedLine) :
    (settings.places file lines).map (Location.inFile other) = settings.places other lines := by
  rw [places, places, List.map_filterMap]
  apply List.filterMap_congr
  intro line _
  rw [place?, place?]
  split <;> rfl

theorem looksAtText_rule : (rule settings).LooksAtText where
  check_eq first second sameText := by
    change settings.check second = (settings.check first).map _
    rw [check_eq_map_places, check_eq_map_places, Source.lines, Source.lines, sameText,
      ← settings.map_inFile_places first.relativePath, List.map_map, List.map_map]
    rfl
  fix_eq first second sameText := by
    change some (settings.correct first.text) = some (settings.correct second.text)
    rw [sameText]

theorem dependsOnText_rule : (rule settings).DependsOnText :=
  settings.looksAtText_rule.dependsOnText

theorem reportsRelatively_rule : (rule settings).ReportsRelatively :=
  settings.looksAtText_rule.reportsRelatively

/-! ## One violation a line -/

theorem line_ge_of_mem_places (file : Path) (number offset : Nat) (lines : List Line)
    {place : Location}
    (member : place ∈ settings.places file (PlacedLine.placeFrom number offset lines)) :
    number ≤ place.line := by
  induction lines generalizing number offset with
  | nil => cases member
  | cons line others ih =>
      rw [places_placeFrom_cons, List.mem_append, Option.mem_toList] at member
      rcases member with here | later
      · exact (settings.file_line_of_place? here).2.ge
      · exact Nat.le_of_succ_le (ih (number + 1) _ later)

theorem pairwise_line_places (file : Path) (number offset : Nat) (lines : List Line) :
    (settings.places file (PlacedLine.placeFrom number offset lines)).Pairwise
      fun first second => first.line < second.line := by
  induction lines generalizing number offset with
  | nil => exact .nil
  | cons line others ih =>
      rw [places_placeFrom_cons, List.pairwise_append]
      refine ⟨?_, ih (number + 1) _, ?_⟩
      · cases settings.place? file { line with number, offset } <;> simp
      · intro first here second later
        have lineEq := (settings.file_line_of_place? (Option.mem_toList.mp here)).2
        have behind := settings.line_ge_of_mem_places file _ _ others later
        rw [lineEq]
        exact behind

/-- A check reports at most one violation for each line, in the order of the lines. -/
theorem pairwise_line_check (source : Source) :
    (settings.check source).Pairwise fun first second =>
      first.location.line < second.location.line := by
  rw [check_eq_map_places, List.pairwise_map]
  exact settings.pairwise_line_places source.relativePath 1 0 (Line.split source.text)

end TrailingSpaces
end TidyLines
