import TidyLines.Proofs.Line.Reading
import TidyLines.Proofs.TrailingSpaces.LineStructure

/-!
# Texts with other line endings

A text can be written with one terminator for all of its lines (`Text.withEndings`).  Its lines are
the same then but for their terminators, and since no two of these can become one, correction keeps
the lines of such a text whatever white space they end in.  Places differ in the bytes before them
only.
-/

namespace TidyLines

/-- A text with another ending for each of its lines; a carriage return and the line feed that
follows it are one ending. -/
def Text.withEndings (text ending : Text) : Text :=
  match text with
  | [] => []
  | character :: rest =>
    if character = '\r' ∧ rest.head? = some '\n' then withEndings rest ending
    else if endsLine character then ending ++ withEndings rest ending
    else character :: withEndings rest ending

/-- A place as it is counted in lines and within its line. -/
def Location.inLine (place : Location) : Nat × Nat × Nat :=
  (place.line, place.column, place.length)

namespace Line

/-- A line with another terminator, if it has one. -/
def endWith (ending : Terminator) (line : Line) : Line :=
  { line with terminator := if line.terminator = .endOfText then .endOfText else ending }

theorem withEndings_eq_join (ending : Terminator) (text : Text) :
    text.withEndings ending.text = join ((split text).map (endWith ending)) := by
  induction text with
  | nil => rfl
  | cons character rest ih =>
      obtain ⟨others, splitRest⟩ := exists_split_eq_first rest
      rw [splitRest] at ih
      rw [Text.withEndings, split_cons, splitRest]
      rcases Text.eq_or_endsLine_eq_false character with rfl | rfl | inside
      · rw [push_lineFeed (by simp), ih]
        simp [Text.endsLine, endWith]
      · rw [push_carriageReturn_first]
        by_cases feeds : rest.head? = some '\n'
        · -- The line feed stands for the two of them.
          obtain ⟨behind, rfl⟩ := List.head?_eq_some_iff.mp feeds
          rw [if_pos ⟨rfl, feeds⟩, if_pos feeds, ih, first_lineFeed]
          simp [endWith]
        · rw [if_neg (by simp [feeds]), if_neg feeds, ih]
          simp [Text.endsLine, endWith]
      · have noReturn := (Text.ne_of_endsLine_eq_false inside).2
        rw [push_of_not_endsLine inside, ih]
        simp [noReturn, inside, endWith]

theorem delimited_endWith {ending : Terminator} (ends : ending ≠ .endOfText) {lines : List Line}
    (delimited : Delimited lines) : Delimited (lines.map (endWith ending)) := by
  induction delimited with
  | last unbroken unterminated => exact .last unbroken (by simp [endWith, unterminated])
  | cons unbroken terminated rest ih =>
      exact .cons unbroken (by simpa [endWith, terminated] using ends) ih

/-- Lines with one terminator for all never fuse. -/
theorem isChain_endWith (ending : Terminator) (lines : List Line) :
    (lines.map (endWith ending)).IsChain fun line next => line.fuses next = false := by
  rw [List.isChain_map]
  refine List.Pairwise.isChain (List.pairwise_of_forall ?_)
  intro line next
  rw [← Bool.not_eq_true, fuses_iff]
  rintro ⟨returns, -, feeds⟩
  simp only [endWith] at returns feeds
  split at returns
  · cases returns
  · split at feeds
    · cases feeds
    · rw [returns] at feeds
      cases feeds

theorem split_withEndings (text : Text) {ending : Terminator} (ends : ending ≠ .endOfText) :
    split (text.withEndings ending.text) = (split text).map (endWith ending) :=
  (factors_iff.mp ⟨(withEndings_eq_join ending text).symm,
    delimited_endWith ends (delimited_split text), isChain_endWith ending (split text)⟩).symm

theorem terminator_of_mem_dropLast {ending : Terminator} {lines : List Line}
    (delimited : Delimited lines) {line : Line}
    (inner : line ∈ (lines.map (endWith ending)).dropLast) : line.terminator = ending := by
  induction delimited with
  | last => cases inner
  | cons unbroken terminated rest ih =>
      rw [List.map_cons, List.dropLast_cons_of_ne_nil (by simp [rest.ne_nil]),
        List.mem_cons] at inner
      rcases inner with rfl | later
      · simp [endWith, terminated]
      · exact ih later

end Line

namespace TrailingSpaces

variable (settings : TrailingSpaces) (file : Path)

theorem split_correct_withEndings (text : Text) {ending : Terminator}
    (ends : ending ≠ .endOfText) :
    Line.split (settings.correct (text.withEndings ending.text)) =
      ((Line.split text).map settings.correctLine).map (Line.endWith ending) := by
  have swapped : ((Line.split text).map (Line.endWith ending)).map settings.correctLine =
      ((Line.split text).map settings.correctLine).map (Line.endWith ending) := by
    rw [List.map_map, List.map_map]
    rfl
  rw [split_correct, Line.split_withEndings text ends, swapped,
    Line.fuse_eq_self (Line.isChain_endWith ending _)]

theorem place?_inLine (first second : PlacedLine) (sameContent : first.content = second.content)
    (sameNumber : first.number = second.number) :
    (settings.place? file first).map Location.inLine =
      (settings.place? file second).map Location.inLine := by
  rw [place?, place?, sameContent, sameNumber]
  split <;> rfl

theorem places_endWith_inLine (ending : Terminator) (number offset otherOffset : Nat)
    (lines : List Line) :
    (settings.places file
        (PlacedLine.placeFrom number offset (lines.map (Line.endWith ending)))).map
          Location.inLine =
      (settings.places file (PlacedLine.placeFrom number otherOffset lines)).map
        Location.inLine := by
  induction lines generalizing number offset otherOffset with
  | nil => rfl
  | cons line others ih =>
      have here := settings.place?_inLine file { line.endWith ending with number, offset }
        { line with number, offset := otherOffset } rfl rfl
      rw [List.map_cons, places_placeFrom_cons, places_placeFrom_cons, List.map_append,
        List.map_append, ← Option.toList_map, ← Option.toList_map, here, ih]

/-- It makes no difference how the lines of a text end.  Written with any one terminator for all its
lines, a text has its white space reported in the same lines, at the same columns and as long as
before, and its corrected text has the contents of its lines trimmed, one for one, and that
terminator after each but the last. -/
theorem line_endings_immaterial (text : Text) {ending : Terminator} (ends : ending ≠ .endOfText) :
    (settings.scan (text.withEndings ending.text)).map (fun found => found.location.inLine) =
        (settings.scan text).map (fun found => found.location.inLine) ∧
      List.Forall₂ (fun line corrected =>
          Text.IsTrimmed settings.whitespace.contains line.content corrected.content)
        (Line.split text) (Line.split (settings.correct (text.withEndings ending.text))) ∧
      ∀ line ∈ (Line.split (settings.correct (text.withEndings ending.text))).dropLast,
        line.terminator = ending := by
  refine ⟨?_, ?_, ?_⟩
  · have same := settings.places_endWith_inLine .empty ending 1 0 0 (Line.split text)
    rw [← Line.split_withEndings text ends] at same
    rw [scan_eq_map_places, scan_eq_map_places, List.map_map, List.map_map]
    exact same
  · rw [settings.split_correct_withEndings text ends, List.map_map, List.forall₂_map_right_iff,
      List.forall₂_same]
    intro line _
    exact Text.isTrimmed_dropTrailing settings.whitespace.contains line.content
  · intro line inner
    rw [settings.split_correct_withEndings text ends] at inner
    exact Line.terminator_of_mem_dropLast
      (settings.delimited_map_correctLine (Line.delimited_split text)) inner

/-- A text with all terminators, and a blank line that correction would lose, written with carriage
returns. -/
theorem line_endings_immaterial_sample :
    let text : Text := ['a', ' ', '\r', '\n', '\t', '\r', ' ', '\n', 'b', '\r', 'c', ' ', ' ']
    Terminator.carriageReturn ≠ .endOfText ∧
      (scan {} (text.withEndings ['\r'])).map (fun found => found.location.inLine) =
        [(1, 2, 1), (2, 1, 1), (3, 1, 1), (5, 2, 2)] ∧
      (Line.split (correct {} (text.withEndings ['\r']))).length = 5 ∧
      ∀ line ∈ (Line.split (correct {} (text.withEndings ['\r']))).dropLast,
        line.terminator = .carriageReturn := by
  intro text
  have ends : Terminator.carriageReturn ≠ .endOfText := by decide
  obtain ⟨sameScan, trimmed, terminators⟩ := line_endings_immaterial {} text ends
  have fiveLines : (Line.split text).length = 5 := by decide
  exact ⟨ends, sameScan.trans (by decide), trimmed.length_eq.symm.trans fiveLines, terminators⟩

end TrailingSpaces

end TidyLines
