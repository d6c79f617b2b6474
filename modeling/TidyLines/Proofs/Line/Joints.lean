import TidyLines.Proofs.Line.Splitting

/-!
# Lines put behind other lines

The lines of one text put behind those of another one are the lines of the two texts together,
except at the joint: there a carriage return and a bare line feed become one terminator
(`Line.fuse_append_cons`).  The lines behind the joint keep their places but for the lines and bytes
that stand before it (`PlacedLine.placeFrom_append`).
-/

namespace TidyLines

namespace Line

/-- A line that something can follow: it ends in a terminator and holds no other one. -/
structure Closed (line : Line) : Prop where
  unbroken : ∀ character ∈ line.content, Text.endsLine character = false
  terminated : line.terminator ≠ .endOfText

theorem join_append (first second : List Line) :
    join (first ++ second) = join first ++ join second :=
  List.flatMap_append

/-- Lines stand for a text when the last ones do and all lines before these are closed. -/
theorem delimited_append_iff {first second : List Line} (nonempty : second ≠ []) :
    Delimited (first ++ second) ↔ (∀ line ∈ first, line.Closed) ∧ Delimited second := by
  induction first with
  | nil => simp
  | cons line others ih =>
      rw [List.cons_append, List.forall_mem_cons, and_assoc, ← ih]
      constructor
      · intro delimited
        generalize rest : others ++ second = behind at delimited
        cases delimited with
        | last => simp [nonempty] at rest
        | cons unbroken terminated delimited => exact ⟨⟨unbroken, terminated⟩, rest ▸ delimited⟩
      · rintro ⟨closed, delimited⟩
        exact .cons closed.unbroken closed.terminated delimited

/-- A text is its closed lines and the content of its last line. -/
theorem exists_split_eq_append (text : Text) :
    ∃ before content, split text = before ++ [⟨content, .endOfText⟩] ∧
      text = join before ++ content ∧ (∀ line ∈ before, line.Closed) ∧
      ∀ character ∈ content, Text.endsLine character = false := by
  have whole := join_split text
  have delimited := delimited_split text
  rcases List.eq_nil_or_concat' (split text) with none | ⟨before, ⟨content, terminator⟩, splitEq⟩
  · exact absurd none (split_ne_nil text)
  · rw [splitEq] at whole delimited
    obtain ⟨closed, last⟩ := (delimited_append_iff (by simp)).mp delimited
    cases last with
    | last unbroken unterminated =>
        obtain rfl : terminator = .endOfText := unterminated
        refine ⟨before, content, splitEq, ?_, closed, unbroken⟩
        rw [← whole, join_append]
        simp [Terminator.text]
    | cons _ _ rest => cases rest

/-! ## The joint -/

/-- Whether a line fuses with the last of the lines before it. -/
def fusesBehind (before : List Line) (line : Line) : Bool :=
  before.getLast?.any fun last => last.fuses line

/-- Where lines that stay apart are put behind others that do, only those at the joint can fuse. -/
theorem fuse_append_cons {before others : List Line} {line : Line}
    (apart : (before ++ [line]).IsChain fun line next => line.fuses next = false)
    (othersApart : others.IsChain fun line next => line.fuses next = false) :
    fuse (before ++ line :: others) = before ++ fuseOnto line others := by
  induction before with
  | nil => rw [List.nil_append, fuse_cons, fuse_eq_self othersApart, List.nil_append]
  | cons first before ih =>
      rw [List.cons_append, List.isChain_cons] at apart
      rw [List.cons_append, fuse_cons, ih apart.2, List.cons_append]
      cases before with
      | nil => exact fuseOnto_fuseOnto_of_apart (apart.1 line (by simp)) others
      | cons next before => simp [fuseOnto, apart.1 next (by simp)]

/-- A line feed behind a text closes its last line, unless it belongs to the carriage return that
ends the text. -/
theorem split_append_lineFeed {before : List Line} {content : Text}
    (closed : ∀ line ∈ before, line.Closed)
    (unbroken : ∀ character ∈ content, Text.endsLine character = false) (rest : Text) :
    split (join before ++ content ++ '\n' :: rest) =
      fuse (before ++ ⟨content, .lineFeed⟩ :: split rest) := by
  have delimited : Delimited (before ++ ⟨content, .lineFeed⟩ :: split rest) :=
    (delimited_append_iff (by simp)).mpr ⟨closed, .cons unbroken (by simp) (delimited_split rest)⟩
  rw [← split_join delimited, join_append, join_cons, join_split]
  simp [Terminator.text]

/-- The last line of a text fuses with a line feed behind it when the text ends in a carriage
return. -/
theorem fusesBehind_lineFeed {before : List Line} {content : Text}
    (closed : ∀ line ∈ before, line.Closed)
    (unbroken : ∀ character ∈ content, Text.endsLine character = false) :
    fusesBehind before ⟨content, .lineFeed⟩ = true ↔
      (join before ++ content).getLast? = some '\r' := by
  rcases List.eq_nil_or_concat' content with rfl | ⟨init, character, rfl⟩
  · rcases List.eq_nil_or_concat' before with rfl | ⟨init, last, rfl⟩
    · simp [fusesBehind]
    · have terminated := (closed last (by simp)).terminated
      rw [join_append, List.append_nil, join_cons, join_nil, List.append_nil]
      cases ending : last.terminator <;>
        simp_all [fusesBehind, fuses, isBareLineFeed, Terminator.text]
  · have noReturn := (Text.ne_of_endsLine_eq_false (unbroken character (by simp))).2
    cases lastLine : before.getLast? <;>
      simp [fusesBehind, fuses, isBareLineFeed, noReturn, lastLine, ← List.append_assoc]

end Line

namespace PlacedLine

theorem placeFrom_append (number offset : Nat) (first second : List Line) :
    placeFrom number offset (first ++ second) =
      placeFrom number offset first ++
        placeFrom (number + first.length) (offset + Text.byteLength (Line.join first)) second := by
  induction first generalizing number offset with
  | nil => simp [placeFrom]
  | cons line others ih =>
      rw [List.cons_append, placeFrom, placeFrom, ih, List.cons_append, Line.join_cons, ← Line.text,
        Text.byteLength_append, List.length_cons, Nat.add_assoc, Nat.add_assoc, Nat.add_comm 1]

theorem exists_of_mem_placeFrom {number offset : Nat} {lines : List Line} {placed : PlacedLine}
    (member : placed ∈ placeFrom number offset lines) :
    ∃ before line after, lines = before ++ line :: after ∧ placed = { line with
      number := number + before.length
      offset := offset + Text.byteLength (Line.join before) } := by
  induction lines generalizing number offset with
  | nil => cases member
  | cons line others ih =>
      rw [placeFrom, List.mem_cons] at member
      rcases member with rfl | later
      · exact ⟨[], line, others, rfl, rfl⟩
      · obtain ⟨before, found, after, rfl, rfl⟩ := ih later
        refine ⟨line :: before, found, after, rfl, ?_⟩
        simp [Line.text, Nat.add_assoc, Nat.add_comm 1]

end PlacedLine

end TidyLines
