import TidyLines.Proofs.Line.Joints
import TidyLines.Proofs.TrailingSpaces.Edits
import TidyLines.Proofs.TrailingSpaces.Reference

/-!
# Scanning and correcting texts in parts

At a line feed a text can be cut, and its parts scanned and corrected on their own.  The cut may
part a carriage return from its line feed, in which case the first part has one line more than it
has in the whole text.  What a scan reports behind the joint is what it reports in the second part
alone, moved by the lines and bytes in front of it (`TrailingSpaces.places_fuse`).
-/

namespace TidyLines

/-- A place some lines and some bytes further on. -/
def Location.moved (place : Location) (lines bytes : Nat) : Location :=
  { place with line := place.line + lines, offset := place.offset + bytes }

/-- A violation some lines and some bytes further on, and the replacement that it suggests too. -/
def Violation.moved (violation : Violation) (lines bytes : Nat) : Violation :=
  { violation with
    location := violation.location.moved lines bytes
    suggestion := violation.suggestion.map fun suggestion => { suggestion with
      replacement := suggestion.replacement.map fun replacement => { replacement with
        location := replacement.location.moved lines bytes } } }

namespace Text

theorem blankAhead_append_lineFeed (matching : Char → Bool) (first second : Text) :
    blankAhead matching (first ++ '\n' :: second) = blankAhead matching first := by
  induction first with
  | nil => rfl
  | cons character rest ih => rw [List.cons_append, blankAhead_cons, blankAhead_cons, ih]

end Text

namespace TrailingSpaces

variable (settings : TrailingSpaces) (file : Path)

theorem correct_append_lineFeed (first second : Text) :
    settings.correct (first ++ '\n' :: second) =
      settings.correct first ++ '\n' :: settings.correct second := by
  induction first with
  | nil => simp [correct_cons]
  | cons character rest ih =>
      rw [List.cons_append, correct_cons, correct_cons, Text.blankAhead_append_lineFeed, ih]
      split <;> rfl

theorem map_moved_violationAt (places : List Location) (lines bytes : Nat) :
    (places.map settings.violationAt).map (fun violation => violation.moved lines bytes) =
      (places.map fun place => place.moved lines bytes).map settings.violationAt := by
  rw [List.map_map, List.map_map]
  rfl

theorem places_placeFrom_append (number offset : Nat) (first second : List Line) :
    settings.places file (PlacedLine.placeFrom number offset (first ++ second)) =
      settings.places file (PlacedLine.placeFrom number offset first) ++
        settings.places file (PlacedLine.placeFrom (number + first.length)
          (offset + Text.byteLength (Line.join first)) second) := by
  rw [PlacedLine.placeFrom_append, places, List.filterMap_append]
  rfl

theorem place?_moved (line : PlacedLine) (lines bytes : Nat) :
    settings.place? file { line with
        number := line.number + lines
        offset := line.offset + bytes } =
      (settings.place? file line).map fun place => place.moved lines bytes := by
  simp only [place?]
  split
  · rfl
  · simp [Location.moved, Nat.add_right_comm]

theorem places_moved (number offset lines bytes : Nat) (content : List Line) :
    settings.places file (PlacedLine.placeFrom (number + lines) (offset + bytes) content) =
      (settings.places file (PlacedLine.placeFrom number offset content)).map
        fun place => place.moved lines bytes := by
  induction content generalizing number offset with
  | nil => rfl
  | cons line others ih =>
      have here := settings.place?_moved file { line with number, offset } lines bytes
      have behind := ih (number + 1) (offset + Text.byteLength line.text)
      rw [Nat.add_right_comm number, Nat.add_right_comm offset] at behind
      rw [places_placeFrom_cons, places_placeFrom_cons, behind, here, Option.toList_map,
        List.map_append]

theorem place?_eq_none (line : PlacedLine) (empty : line.content = []) :
    settings.place? file line = none := by
  simp [place?, empty]

/-- What is reported in lines that may fuse at one joint: the lines before the joint and the line
behind it are reported as they stand there, and those that follow are one line further on unless the
two at the joint are one. -/
theorem places_fuse (number offset : Nat) {before after : List Line} {line : Line}
    (beforeApart : before.IsChain fun line next => line.fuses next = false)
    (afterApart : (line :: after).IsChain fun line next => line.fuses next = false) :
    settings.places file
        (PlacedLine.placeFrom number offset (Line.fuse (before ++ line :: after))) =
      settings.places file (PlacedLine.placeFrom number offset before) ++
        ((settings.place? file { line with
            number := number + before.length
            offset := offset + Text.byteLength (Line.join before) }).toList ++
          settings.places file (PlacedLine.placeFrom
            (number + before.length + if Line.fusesBehind before line then 0 else 1)
            (offset + Text.byteLength (Line.join before) + Text.byteLength line.text) after)) := by
  rcases List.eq_nil_or_concat' before with rfl | ⟨init, last, rfl⟩
  · rw [List.nil_append, Line.fuse_eq_self afterApart, places_placeFrom_cons]
    rfl
  · have joint : Line.fuse (init ++ [last] ++ line :: after) =
        init ++ Line.fuseOnto last (line :: after) := by
      rw [List.append_assoc, List.singleton_append, Line.fuse_append_cons beforeApart afterApart]
    have lastOnly : Line.fusesBehind (init ++ [last]) line = last.fuses line := by
      simp [Line.fusesBehind]
    rw [joint, lastOnly, Line.fuseOnto]
    by_cases fused : last.fuses line = true
    · obtain ⟨returns, empty, feeds⟩ := (Line.fuses_iff _ _).mp fused
      have nothing := settings.place?_eq_none file { line with
        number := number + (init ++ [last]).length
        offset := offset + Text.byteLength (Line.join (init ++ [last])) } empty
      have bytes : Text.byteLength (Line.text ⟨last.content, .carriageReturnLineFeed⟩) =
          Text.byteLength last.text + Text.byteLength line.text := by
        simp [Line.text, Terminator.text, returns, empty, feeds, Nat.add_assoc]
      rw [if_pos fused, if_pos fused, nothing, places_placeFrom_append, places_placeFrom_append,
        places_placeFrom_cons, places_placeFrom_cons, bytes, Line.join_append, Line.join_cons,
        ← Line.text, Line.join_nil, List.append_nil, Text.byteLength_append, List.length_append]
      simp [PlacedLine.placeFrom, places, Nat.add_assoc]
      rfl
    · rw [if_neg fused, if_neg fused, List.append_cons, places_placeFrom_append,
        places_placeFrom_cons]

theorem places_append_lineFeed (first second : Text) :
    settings.places file (PlacedLine.split (first ++ '\n' :: second)) =
      settings.places file (PlacedLine.split first) ++
        (settings.places file (PlacedLine.split second)).map fun place => place.moved
          ((Line.split first).length - if first.getLast? = some '\r' then 1 else 0)
          (Text.byteLength first + 1) := by
  obtain ⟨before, content, splitFirst, textEq, closed, unbroken⟩ :=
    Line.exists_split_eq_append first
  have beforeApart := (List.isChain_append.mp (splitFirst ▸ Line.isChain_split first)).1
  have noReturn : (⟨content, .lineFeed⟩ : Line).terminator ≠ .carriageReturn := by simp
  have restApart := (Line.isChain_cons_of_terminator_ne noReturn (Line.split second)).mpr
    (Line.isChain_split second)
  have splitWhole := Line.split_append_lineFeed closed unbroken second
  have joined := Line.fusesBehind_lineFeed closed unbroken
  rw [← textEq] at splitWhole joined
  have number : 1 + before.length +
      (if Line.fusesBehind before ⟨content, .lineFeed⟩ = true then 0 else 1) =
        1 + ((Line.split first).length - if first.getLast? = some '\r' then 1 else 0) := by
    rw [splitFirst, List.length_append, List.length_singleton]
    simp only [joined]
    split <;> omega
  have offset : 0 + Text.byteLength (Line.join before) +
      Text.byteLength (Line.text ⟨content, .lineFeed⟩) = 0 + (Text.byteLength first + 1) := by
    rw [textEq, Line.text, Text.byteLength_append, Text.byteLength_append, Nat.zero_add,
      Nat.zero_add, Nat.add_assoc]
    rfl
  rw [PlacedLine.split, splitWhole, settings.places_fuse file 1 0 beforeApart restApart, number,
    offset, places_moved, PlacedLine.split, splitFirst, places_placeFrom_append,
    places_placeFrom_cons, List.append_assoc, List.append_assoc]
  rfl

/-- A text can be cut at a line feed, and its parts corrected and scanned on their own.  Behind the
cut everything is reported as many lines further on as the first part has, less one if that part
ends in the carriage return to which the line feed belongs, and as many bytes further on as the
first part and the line feed take. -/
theorem correct_scan_append_lineFeed (first second : Text) :
    settings.correct (first ++ '\n' :: second) =
        settings.correct first ++ '\n' :: settings.correct second ∧
      settings.scan (first ++ '\n' :: second) =
        settings.scan first ++ (settings.scan second).map fun violation => violation.moved
          ((Line.split first).length - if first.getLast? = some '\r' then 1 else 0)
          (Text.byteLength first + 1) := by
  refine ⟨settings.correct_append_lineFeed first second, ?_⟩
  rw [scan_eq_map_places, scan_eq_map_places, scan_eq_map_places, places_append_lineFeed,
    List.map_append, map_moved_violationAt]

end TrailingSpaces

end TidyLines
