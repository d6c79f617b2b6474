import Mathlib.Algebra.Ring.Nat
import Mathlib.Data.List.Basic
import TidyLines.Proofs.Text.Trimming
import TidyLines.TrailingSpaces
import TidyLines.Violation.Edit

/-!
# The suggested edits make the correction

Each violation suggests a replacement at a range of bytes.  The ranges are computed from the byte
offsets of the lines, the corrected text by joining trimmed lines.  This file shows that the two
agree: every range covers whole characters, ranges follow one another without overlap, and carrying
all replacements out gives the corrected text.

All statements about a list of lines are about lines that stand behind some other text, whose
length is the offset of the first of them.  This is what the induction on the lines carries.
-/

namespace TidyLines

/-- Whether a number of bytes of a text ends between two characters. -/
def Text.IsBoundary (text : Text) (offset : Nat) : Prop :=
  ∃ before, before <+: text ∧ Text.byteLength before = offset

/-- A place that holds some whole characters of a text. -/
structure Location.HoldsCharacters (place : Location) (text : Text) : Prop where
  nonempty : 0 < place.length
  inside : place.offset + place.length ≤ Text.byteLength text
  starts_at_boundary : text.IsBoundary place.offset
  ends_at_boundary : text.IsBoundary (place.offset + place.length)

/-- A place that follows another one: it starts later, and not before the other one has ended. -/
def Location.Follows (later earlier : Location) : Prop :=
  earlier.offset < later.offset ∧ earlier.offset + earlier.length ≤ later.offset

theorem Location.holdsCharacters_of_append {place : Location} {before covered : Text}
    (after : Text) (nonempty : covered ≠ []) (starts : place.offset = Text.byteLength before)
    (covers : place.length = Text.byteLength covered) :
    place.HoldsCharacters (before ++ covered ++ after) where
  nonempty := by
    obtain ⟨character, rest, rfl⟩ := List.exists_cons_of_ne_nil nonempty
    have positive := character.utf8Size_pos
    rw [covers, Text.byteLength_cons]
    omega
  inside := by
    simp only [starts, covers, Text.byteLength_append]
    omega
  starts_at_boundary := by
    refine ⟨before, ?_, starts.symm⟩
    rw [List.append_assoc]
    exact List.prefix_append before (covered ++ after)
  ends_at_boundary := by
    refine ⟨before ++ covered, List.prefix_append _ after, ?_⟩
    rw [starts, covers, Text.byteLength_append]

namespace TrailingSpaces

variable (settings : TrailingSpaces) (file : Path)

/-- The places of the white space at the ends of lines. -/
def places (lines : List PlacedLine) : List Location :=
  lines.filterMap (settings.place? file)

/-- A check reports the places of its lines, one violation each. -/
theorem check_eq_map_places (source : Source) :
    settings.check source =
      (settings.places source.relativePath source.lines).map settings.violationAt := by
  rw [check, places, List.map_filterMap]

theorem scan_eq_map_places (text : Text) :
    settings.scan text =
      (settings.places .empty (PlacedLine.split text)).map settings.violationAt :=
  settings.check_eq_map_places (.ofText text)

/-- The place of a line is that of the run which trimming takes away, if it takes any. -/
theorem place?_eq (line : PlacedLine) :
    ∃ run, line.content = settings.keep line.content ++ run ∧
      settings.place? file line = if run = [] then none else some {
        file
        line := line.number
        column := (settings.keep line.content).length + 1
        offset := line.offset + Text.byteLength (settings.keep line.content)
        length := Text.byteLength run } := by
  obtain ⟨⟨run, contentEq, -⟩, -⟩ :=
    Text.isTrimmed_dropTrailing settings.whitespace.contains line.content
  rw [← keep] at contentEq
  have lengthEq : Text.byteLength line.content - Text.byteLength (settings.keep line.content) =
      Text.byteLength run := by
    have whole := congrArg Text.byteLength contentEq
    rw [Text.byteLength_append] at whole
    omega
  refine ⟨run, contentEq, ?_⟩
  simp only [place?, lengthEq, Text.byteLength_eq_zero_iff]

theorem exists_run_of_place? {line : PlacedLine} {place : Location}
    (found : settings.place? file line = some place) :
    ∃ run, run ≠ [] ∧ line.content = settings.keep line.content ++ run ∧
      place.offset = line.offset + Text.byteLength (settings.keep line.content) ∧
      place.length = Text.byteLength run := by
  obtain ⟨run, contentEq, placeEq⟩ := settings.place?_eq file line
  rw [found] at placeEq
  split at placeEq
  · contradiction
  next nonempty =>
    obtain rfl := Option.some.inj placeEq
    exact ⟨run, nonempty, contentEq, rfl, rfl⟩

theorem line_text_parts {line : Line} {kept run : Text}
    (contentEq : line.content = kept ++ run) (before after : Text) :
    before ++ (line.text ++ after) =
      before ++ kept ++ run ++ (line.terminator.text ++ after) := by
  rw [Line.text, contentEq]
  simp only [List.append_assoc]

theorem places_placeFrom_cons (number offset : Nat) (line : Line) (others : List Line) :
    settings.places file (PlacedLine.placeFrom number offset (line :: others)) =
      (settings.place? file { line with number, offset }).toList ++
        settings.places file
          (PlacedLine.placeFrom (number + 1) (offset + Text.byteLength line.text) others) := by
  rw [places, PlacedLine.placeFrom, List.filterMap_cons, ← places]
  cases settings.place? file { line with number, offset } <;> rfl

/-! ## Where the places are -/

theorem holdsCharacters_of_place? {before : Text} {number : Nat} {line : Line} {place : Location}
    (found : settings.place? file { line with number, offset := Text.byteLength before } =
      some place) (after : Text) :
    place.HoldsCharacters (before ++ (line.text ++ after)) := by
  obtain ⟨run, nonempty, contentEq, offsetEq, lengthEq⟩ :=
    settings.exists_run_of_place? file found
  rw [← Text.byteLength_append] at offsetEq
  rw [line_text_parts contentEq before after]
  exact Location.holdsCharacters_of_append _ nonempty offsetEq lengthEq

theorem holdsCharacters_of_mem_places (before : Text) (number : Nat) (lines : List Line)
    {place : Location}
    (member : place ∈ settings.places file
      (PlacedLine.placeFrom number (Text.byteLength before) lines)) :
    place.HoldsCharacters (before ++ Line.join lines) := by
  induction lines generalizing before number with
  | nil => cases member
  | cons line others ih =>
      rw [places_placeFrom_cons, List.mem_append, Option.mem_toList] at member
      rw [Line.join_cons, ← Line.text]
      rcases member with here | later
      · exact settings.holdsCharacters_of_place? file here (Line.join others)
      · rw [← Text.byteLength_append] at later
        rw [← List.append_assoc]
        exact ih (before ++ line.text) (number + 1) later

/-- The place of a line starts in the line and ends before the next one. -/
theorem bounds_of_place? {number offset : Nat} {line : Line} {place : Location}
    (found : settings.place? file { line with number, offset } = some place) :
    offset ≤ place.offset ∧ 0 < place.length ∧
      place.offset + place.length ≤ offset + Text.byteLength line.text := by
  obtain ⟨run, nonempty, contentEq, offsetEq, lengthEq⟩ :=
    settings.exists_run_of_place? file found
  have wholeLength := congrArg Text.byteLength contentEq
  have positive : Text.byteLength run ≠ 0 := mt (Text.byteLength_eq_zero_iff run).mp nonempty
  dsimp only at offsetEq wholeLength
  simp only [Line.text, Text.byteLength_append] at wholeLength ⊢
  omega

theorem offset_le_of_mem_places (number offset : Nat) (lines : List Line) {place : Location}
    (member : place ∈ settings.places file (PlacedLine.placeFrom number offset lines)) :
    offset ≤ place.offset := by
  induction lines generalizing number offset with
  | nil => cases member
  | cons line others ih =>
      rw [places_placeFrom_cons, List.mem_append, Option.mem_toList] at member
      rcases member with here | later
      · exact (settings.bounds_of_place? file here).1
      · have behind := ih (number + 1) (offset + Text.byteLength line.text) later
        omega

/-- Every place of a list of lines follows all places before it. -/
theorem pairwise_follows_places (number offset : Nat) (lines : List Line) :
    (settings.places file (PlacedLine.placeFrom number offset lines)).Pairwise
      fun earlier later => later.Follows earlier := by
  induction lines generalizing number offset with
  | nil => exact .nil
  | cons line others ih =>
      rw [places_placeFrom_cons, List.pairwise_append]
      refine ⟨?_, ih (number + 1) (offset + Text.byteLength line.text), ?_⟩
      · cases settings.place? file { line with number, offset } <;> simp
      · intro earlier here later behind
        have lineBounds := settings.bounds_of_place? file (Option.mem_toList.mp here)
        have nextBound := settings.offset_le_of_mem_places file _ _ others behind
        constructor <;> omega

/-! ## What the replacements do -/

theorem apply_place? (before after : Text) (number : Nat) (line : Line) :
    Replacement.applyAll
        ((settings.place? file { line with number, offset := Text.byteLength before }).toList.map
          fun place => ⟨place, ""⟩)
        (before ++ (line.text ++ after)) =
      before ++ ((settings.correctLine line).text ++ after) := by
  obtain ⟨run, contentEq, placeEq⟩ :=
    settings.place?_eq file { line with number, offset := Text.byteLength before }
  dsimp only at contentEq
  rw [placeEq, correctLine]
  split
  next empty =>
    rw [empty, List.append_nil] at contentEq
    rw [← contentEq]
    rfl
  next nonempty =>
    rw [line_text_parts contentEq before after, Option.toList_some, List.map_singleton,
      Replacement.applyAll, List.foldr_cons, List.foldr_nil,
      Replacement.apply_append _ _ _ _ (Text.byteLength_append _ _).symm rfl]
    simp only [Line.text, String.toList_empty, List.append_nil, List.append_assoc]

/-- Carrying out the replacements of all lines leaves the trimmed lines behind what stood there. -/
theorem applyAll_places (before : Text) (number : Nat) (lines : List Line) :
    Replacement.applyAll
        ((settings.places file
          (PlacedLine.placeFrom number (Text.byteLength before) lines)).map
            fun place => ⟨place, ""⟩)
        (before ++ Line.join lines) =
      before ++ Line.join (lines.map settings.correctLine) := by
  induction lines generalizing before number with
  | nil => rfl
  | cons line others ih =>
      have rest := ih (before ++ line.text) (number + 1)
      rw [Text.byteLength_append, List.append_assoc, List.append_assoc] at rest
      rw [places_placeFrom_cons, List.map_append, Replacement.applyAll, List.foldr_append,
        ← Replacement.applyAll, ← Replacement.applyAll, Line.join_cons, ← Line.text, rest,
        apply_place?, List.map_cons, Line.join_cons, ← Line.text]

theorem length_sum_place? (number offset : Nat) (line : Line) :
    ((settings.place? file { line with number, offset }).toList.map Location.length).sum +
        Text.byteLength (settings.correctLine line).text = Text.byteLength line.text := by
  obtain ⟨run, contentEq, placeEq⟩ := settings.place?_eq file { line with number, offset }
  have lengthEq := congrArg Text.byteLength contentEq
  rw [placeEq, correctLine]
  simp only [Line.text, Text.byteLength_append] at lengthEq ⊢
  split
  next empty =>
    simp only [empty, Text.byteLength_nil] at lengthEq
    simp only [Option.toList_none, List.map_nil, List.sum_nil]
    omega
  next nonempty =>
    simp only [Option.toList_some, List.map_singleton, List.sum_singleton]
    omega

/-- The places of all lines hold as many bytes as the trimmed lines are shorter. -/
theorem length_sum_places (number offset : Nat) (lines : List Line) :
    ((settings.places file (PlacedLine.placeFrom number offset lines)).map Location.length).sum +
        Text.byteLength (Line.join (lines.map settings.correctLine)) =
      Text.byteLength (Line.join lines) := by
  induction lines generalizing number offset with
  | nil => rfl
  | cons line others ih =>
      have here := settings.length_sum_place? file number offset line
      have behind := ih (number + 1) (offset + Text.byteLength line.text)
      rw [places_placeFrom_cons, List.map_append, List.sum_append, List.map_cons, Line.join_cons,
        Line.join_cons, ← Line.text, ← Line.text, Text.byteLength_append, Text.byteLength_append]
      omega

/-! ## Whole texts -/

theorem holdsCharacters_of_mem_places_split {text : Text} {place : Location}
    (member : place ∈ settings.places file (PlacedLine.split text)) :
    place.HoldsCharacters text := by
  have holds := settings.holdsCharacters_of_mem_places file [] 1 (Line.split text) member
  rwa [Line.join_split] at holds

theorem applyAll_places_split (text : Text) :
    Replacement.applyAll
        ((settings.places file (PlacedLine.split text)).map fun place => ⟨place, ""⟩) text =
      settings.correct text := by
  have carriedOut := settings.applyAll_places file [] 1 (Line.split text)
  rwa [Line.join_split] at carriedOut

theorem length_sum_places_split (text : Text) :
    ((settings.places file (PlacedLine.split text)).map Location.length).sum +
        Text.byteLength (settings.correct text) = Text.byteLength text := by
  have total := settings.length_sum_places file 1 0 (Line.split text)
  rwa [Line.join_split] at total

/-- The replacements that a scan suggests are exactly the edit that correction makes: each lies at
the place of its violation and writes nothing, they hold whole characters and follow one another
without overlap, and carried out from the last to the first they give the corrected text, which is
shorter by as many bytes as they cover. -/
theorem replacements_carry_out_correction (text : Text) :
    (∀ violation ∈ settings.scan text, ∃ advice,
        violation.suggestion = some ⟨advice, some ⟨violation.location, ""⟩⟩) ∧
      (∀ violation ∈ settings.scan text, violation.location.HoldsCharacters text) ∧
      (settings.scan text).Pairwise
        (fun earlier later => later.location.Follows earlier.location) ∧
      Replacement.applyAll ((settings.scan text).filterMap Violation.replacement?) text =
        settings.correct text ∧
      ((settings.scan text).map fun violation => violation.location.length).sum +
        (Text.encode (settings.correct text)).size = (Text.encode text).size := by
  rw [scan_eq_map_places]
  refine ⟨?_, ?_, ?_, ?_, ?_⟩
  · intro violation member
    obtain ⟨place, -, rfl⟩ := List.mem_map.mp member
    exact ⟨advice, rfl⟩
  · intro violation member
    obtain ⟨place, found, rfl⟩ := List.mem_map.mp member
    exact settings.holdsCharacters_of_mem_places_split .empty found
  · rw [List.pairwise_map]
    exact settings.pairwise_follows_places .empty 1 0 (Line.split text)
  · rw [List.filterMap_map, ← settings.applyAll_places_split .empty text,
      ← List.filterMap_eq_map]
    rfl
  · rw [List.map_map, Text.size_encode, Text.size_encode]
    exact settings.length_sum_places_split .empty text

end TrailingSpaces

end TidyLines
