import Mathlib.Data.List.DropRight
import TidyLines.Text

/-!
# Trimmed texts

A text is trimmed by taking away the longest run of chosen characters at its end.  This file says
what that means without a recursion (`Text.IsTrimmed`), shows that `Text.dropTrailing` computes the
one text with that property, and collects the laws of trimming that the theory of lines needs.
-/

namespace TidyLines

namespace Text

variable (matching : Char → Bool)

/-- The second text is the first one without the longest run of matching characters at its end:
only such characters are gone, and none of them is left at the end. -/
structure IsTrimmed (text kept : Text) : Prop where
  exists_run : ∃ run, text = kept ++ run ∧ ∀ character ∈ run, matching character = true
  last_not_matching : ∀ character ∈ kept.getLast?, matching character = false

private theorem dropTrailing_concat_of_not_matching (text : Text) {character : Char}
    (stays : matching character = false) :
    dropTrailing matching (text ++ [character]) = text ++ [character] := by
  induction text with
  | nil => simp [dropTrailing_cons, stays]
  | cons first rest ih =>
      rw [List.cons_append, dropTrailing_cons, ih]
      simp

/-- Trimming is the library's way of dropping from the right. -/
theorem dropTrailing_eq_rdropWhile (text : Text) :
    dropTrailing matching text = text.rdropWhile matching := by
  induction text using List.reverseRecOn with
  | nil => simp
  | append_singleton text character ih =>
      rw [List.rdropWhile_concat]
      split
      next goes =>
        rw [← ih]
        simp [dropTrailing, goes]
      next stays =>
        exact dropTrailing_concat_of_not_matching matching text (by simpa using stays)

theorem dropTrailing_prefix (text : Text) : dropTrailing matching text <+: text := by
  rw [dropTrailing_eq_rdropWhile]
  exact List.rdropWhile_prefix matching text

theorem dropTrailing_append_of_all {run : Text}
    (allMatching : ∀ character ∈ run, matching character = true) (text : Text) :
    dropTrailing matching (text ++ run) = dropTrailing matching text := by
  rw [dropTrailing, List.foldr_append]
  have nothingLeft := (dropTrailing_eq_nil_iff matching run).mpr allMatching
  rw [dropTrailing] at nothingLeft
  rw [nothingLeft, dropTrailing]

theorem isTrimmed_dropTrailing (text : Text) :
    IsTrimmed matching text (dropTrailing matching text) := by
  rw [dropTrailing_eq_rdropWhile]
  constructor
  · exact ⟨text.rtakeWhile matching, List.rdropWhile_append_rtakeWhile.symm,
      fun _ member => List.mem_rtakeWhile_imp member⟩
  · intro character isLast
    obtain ⟨nonempty, rfl⟩ := List.mem_getLast?_eq_getLast isLast
    simpa using List.rdropWhile_last_not matching text nonempty

/-- Trimming computes the only trimmed form of a text. -/
theorem isTrimmed_iff {text kept : Text} :
    IsTrimmed matching text kept ↔ kept = dropTrailing matching text := by
  constructor
  · rintro ⟨⟨run, rfl, allMatching⟩, lastStays⟩
    rw [dropTrailing_append_of_all matching allMatching, dropTrailing_eq_rdropWhile, eq_comm,
      List.rdropWhile_eq_self_iff]
    intro nonempty
    simpa using lastStays _ (List.getLast_mem_getLast? nonempty)
  · rintro rfl
    exact isTrimmed_dropTrailing matching text

end Text

end TidyLines
