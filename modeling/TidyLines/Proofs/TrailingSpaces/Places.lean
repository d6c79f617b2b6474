import TidyLines.Proofs.Rule.Locality

/-!
# Where white space is reported

A report on a line counts the line in lines, the place in it in characters and the run of white
space in bytes.  This file ties the three to one way of taking the text apart: what stands before
the line, what the line keeps, the run, and what comes after it (`Line.EndsInRun`).  The places of a
text are those of its lines that end in white space, one for each and in their order
(`TrailingSpaces.forall₂_marks_places`).
-/

namespace TidyLines

namespace Line

variable (matching : Char → Bool)

/-- Whether the content of a line ends in a matching character. -/
def endsIn (line : Line) : Bool := line.content.getLast?.any matching

/-- A line of a text ends in a run of matching characters: the text is what stands before the line,
what the line keeps, the run, and what comes after the run. -/
structure EndsInRun (text : Text) (line : PlacedLine) (before kept run after : Text) : Prop where
  text_eq : text = before ++ kept ++ run ++ after
  offset_eq : line.offset = Text.byteLength before
  content_eq : line.content = kept ++ run
  nonempty : run ≠ []
  all_matching : ∀ character ∈ run, matching character = true
  kept_not_matching : ∀ character ∈ kept.getLast?, matching character = false
  /-- The run goes as far back in the text as it can, not only in the line. -/
  before_not_matching : ∀ character ∈ (before ++ kept).getLast?, matching character = false
  after_ends_line : ∀ character ∈ after.head?, Text.endsLine character = true

/-- A line ends in a matching character when trimming takes something away. -/
theorem endsIn_iff {line : Line} {run : Text}
    (contentEq : line.content = Text.dropTrailing matching line.content ++ run)
    (allMatching : ∀ character ∈ run, matching character = true) :
    line.endsIn matching = true ↔ run ≠ [] := by
  have keptLast := (Text.isTrimmed_dropTrailing matching line.content).last_not_matching
  rw [endsIn, Option.any_eq_true]
  constructor
  · rintro ⟨character, isLast, matches_⟩ rfl
    rw [List.append_nil] at contentEq
    rw [contentEq] at isLast
    rw [keptLast character isLast] at matches_
    cases matches_
  · intro nonempty
    refine ⟨run.getLast nonempty, ?_, allMatching _ (List.getLast_mem nonempty)⟩
    rw [contentEq, List.getLast?_append_of_ne_nil _ nonempty]
    exact List.getLast?_eq_getLast_of_ne_nil nonempty

/-- The characters of a line end in its terminator. -/
theorem endsLine_of_getLast?_text {line : Line} (terminated : line.terminator ≠ .endOfText)
    (before : Text) {character : Char} (isLast : character ∈ (before ++ line.text).getLast?) :
    Text.endsLine character = true := by
  rw [Line.text, ← List.append_assoc] at isLast
  cases ending : line.terminator with
  | endOfText => contradiction
  | lineFeed | carriageReturn | carriageReturnLineFeed =>
      simp only [ending, Terminator.text, List.getLast?_append_cons, Option.mem_def] at isLast
      obtain rfl := Option.some.inj isLast
      rfl

/-- A content is followed by an end of a line, or by nothing if it is the last one. -/
theorem endsLine_of_head?_terminator {terminator : Terminator} {after : Text}
    (lastEnds : terminator = .endOfText → after = []) {character : Char}
    (isNext : character ∈ (terminator.text ++ after).head?) : Text.endsLine character = true := by
  cases terminator with
  | endOfText =>
      rw [lastEnds rfl] at isNext
      cases isNext
  | lineFeed | carriageReturn | carriageReturnLineFeed =>
      obtain rfl := Option.some.inj isNext
      rfl

end Line

namespace TrailingSpaces

variable (settings : TrailingSpaces) (file : Path)

/-- A place holds the white space at the end of a line of a text. -/
def Marks (text : Text) (line : PlacedLine) (place : Location) : Prop :=
  ∃ before kept run after,
    Line.EndsInRun settings.whitespace.contains text line before kept run after ∧
      place = {
        file
        line := line.number
        column := 1 + kept.length
        offset := line.offset + Text.byteLength kept
        length := Text.byteLength run }

theorem contains_eq_false_of_endsLine {character : Char}
    (ends : Text.endsLine character = true) : settings.whitespace.contains character = false := by
  by_contra isSpace
  rw [Bool.not_eq_false] at isSpace
  simp [settings.endsLine_eq_false_of_contains isSpace] at ends

/-- One line has a place when it ends in white space, and no place otherwise. -/
theorem forall₂_marks_place? {before : Text} (after : Text) (number : Nat) (line : Line)
    (clean : ∀ character ∈ before.getLast?, settings.whitespace.contains character = false)
    (lastEnds : line.terminator = .endOfText → after = []) :
    List.Forall₂ (settings.Marks file (before ++ (line.text ++ after)))
      ([({ line with number, offset := Text.byteLength before } : PlacedLine)].filter
        fun line => line.endsIn settings.whitespace.contains)
      (settings.place? file { line with number, offset := Text.byteLength before }).toList := by
  obtain ⟨run, contentEq, placeEq⟩ :=
    settings.place?_eq file { line with number, offset := Text.byteLength before }
  obtain ⟨⟨space, spaceEq, allSpace⟩, keptLast⟩ :=
    Text.isTrimmed_dropTrailing settings.whitespace.contains line.content
  rw [← keep] at keptLast
  obtain rfl : space = run := List.append_cancel_left (spaceEq.symm.trans contentEq)
  dsimp only at contentEq
  have endsIff := line.endsIn_iff settings.whitespace.contains spaceEq allSpace
  rw [placeEq, List.filter_cons, List.filter_nil]
  dsimp only
  by_cases empty : space = []
  · rw [if_neg (by simp [endsIff, empty]), if_pos empty]
    exact .nil
  · rw [if_pos (endsIff.mpr empty), if_neg empty]
    refine .cons ⟨before, settings.keep line.content, space, line.terminator.text ++ after, ?_, ?_⟩
      .nil
    · constructor
      case text_eq => exact line_text_parts contentEq before after
      case offset_eq => rfl
      case content_eq => exact contentEq
      case nonempty => exact empty
      case all_matching => exact allSpace
      case kept_not_matching => exact keptLast
      case before_not_matching =>
        rcases List.eq_nil_or_concat' (settings.keep line.content) with
          nothing | ⟨init, last, keptEq⟩
        · simpa [nothing] using clean
        · rw [keptEq] at keptLast ⊢
          simpa using keptLast
      case after_ends_line => exact fun _ => Line.endsLine_of_head?_terminator lastEnds
    · rw [Nat.add_comm 1]

/-- The places of lines mark those of them that end in white space, in their order. -/
theorem forall₂_marks_places (before : Text) (number : Nat) {lines : List Line}
    (clean : ∀ character ∈ before.getLast?, settings.whitespace.contains character = false)
    (delimited : Line.Delimited lines) :
    List.Forall₂ (settings.Marks file (before ++ Line.join lines))
      ((PlacedLine.placeFrom number (Text.byteLength before) lines).filter
        fun line => line.endsIn settings.whitespace.contains)
      (settings.places file (PlacedLine.placeFrom number (Text.byteLength before) lines)) := by
  induction delimited generalizing before number with
  | @last line unbroken unterminated =>
      have alone := settings.forall₂_marks_place? file [] number line clean fun _ => rfl
      rw [places_placeFrom_cons, Line.join_cons, ← Line.text]
      simpa [PlacedLine.placeFrom, places] using alone
  | @cons line others unbroken terminated rest ih =>
      have here := settings.forall₂_marks_place? file (Line.join others) number line clean
        fun ending => absurd ending terminated
      -- Behind a terminator the next line begins with no white space in front of it.
      have cleanNext : ∀ character ∈ (before ++ line.text).getLast?,
          settings.whitespace.contains character = false := fun character isLast =>
        settings.contains_eq_false_of_endsLine
          (Line.endsLine_of_getLast?_text terminated before isLast)
      have behind := ih (before ++ line.text) (number + 1) cleanNext
      rw [Text.byteLength_append, List.append_assoc] at behind
      rw [places_placeFrom_cons, Line.join_cons, ← Line.text, PlacedLine.placeFrom]
      rw [← List.singleton_append, List.filter_append]
      exact List.rel_append here behind

theorem Marks.holdsCharacters {text : Text} {line : PlacedLine} {place : Location}
    (marks : settings.Marks file text line place) : place.HoldsCharacters text := by
  obtain ⟨before, kept, run, after, ends, rfl⟩ := marks
  rw [ends.text_eq]
  refine Location.holdsCharacters_of_append after ends.nonempty ?_ rfl
  rw [ends.offset_eq, Text.byteLength_append]

/-- The bytes that a place covers are white space. -/
theorem Marks.all_matching {text : Text} {line : PlacedLine} {place : Location}
    (marks : settings.Marks file text line place) :
    ∀ character ∈ (text.dropBytes place.offset).takeBytes place.length,
      settings.whitespace.contains character = true := by
  obtain ⟨before, kept, run, after, ends, rfl⟩ := marks
  rw [ends.text_eq, ends.offset_eq, ← Text.byteLength_append, List.append_assoc (before ++ kept),
    Text.dropBytes_byteLength_append, Text.takeBytes_byteLength_append]
  exact ends.all_matching

/-- The places of a text mark its lines that end in white space. -/
theorem forall₂_marks_places_split (text : Text) :
    List.Forall₂ (settings.Marks file text)
      ((PlacedLine.split text).filter fun line => line.endsIn settings.whitespace.contains)
      (settings.places file (PlacedLine.split text)) := by
  have marks := settings.forall₂_marks_places file [] 1 (by simp) (Line.delimited_split text)
  rwa [List.nil_append, Line.join_split] at marks

theorem exists_marks_of_mem_check {source : Source} {violation : Violation}
    (reported : violation ∈ settings.check source) :
    ∃ line, settings.Marks source.relativePath source.text line violation.location := by
  rw [check_eq_map_places] at reported
  obtain ⟨place, isPlace, rfl⟩ := List.mem_map.mp reported
  obtain ⟨index, inside, rfl⟩ := List.mem_iff_getElem.mp isPlace
  obtain ⟨sameLength, related⟩ := List.forall₂_iff_get.mp
    (settings.forall₂_marks_places_split source.relativePath source.text)
  exact ⟨_, related index (sameLength.symm ▸ inside) inside⟩

/-- A scan reports each line that ends in white space once, and no other line, in the order of the
lines.  It gives the line by its number, the place in it by the number of characters that the line
keeps, and the white space by its bytes; this run is followed by the end of a line or of the text
and reaches back as far as there is white space. -/
theorem scan_marks_each_line (text : Text) :
    List.Forall₂ (fun line violation => ∃ place,
        settings.Marks .empty text line place ∧ violation = settings.violationAt place)
      ((PlacedLine.split text).filter fun line => line.endsIn settings.whitespace.contains)
      (settings.scan text) ∧
    (settings.scan text).Pairwise fun first second =>
      first.location.line < second.location.line := by
  refine ⟨?_, settings.pairwise_line_check (.ofText text)⟩
  rw [scan_eq_map_places, List.forall₂_map_right_iff]
  exact (settings.forall₂_marks_places_split .empty text).imp fun line place marks =>
    ⟨place, marks, rfl⟩

end TrailingSpaces

end TidyLines
