import Mathlib.Data.List.Basic
import TidyLines.Proofs.TrailingSpaces.LineStructure
import TidyLines.Proofs.TrailingSpaces.Projection

/-!
# Correction deletes as little as possible

A text can be cleaned by deleting white space at any places, also inside its lines, and each choice
leaves other lines behind (`TrailingSpaces.Cleans`).  All choices have the run at the end of each
line in common: a character of it that stays is followed by nothing but white space that stays, so
that it is reported in the text that is left.
-/

namespace TidyLines

namespace Text

/-- Deleting more leaves less. -/
theorem deleteAt_sublist {fewer more : Nat → Bool}
    (included : ∀ position, fewer position = true → more position = true) (text : Text) :
    (text.deleteAt more).Sublist (text.deleteAt fewer) := by
  refine List.Sublist.map Prod.fst (List.monotone_filter_right _ ?_)
  intro entry stays
  cases gone : fewer entry.2 with
  | false => rfl
  | true => simp [included entry.2 gone] at stays

/-- All positions that are chosen in a text hold a matching character. -/
def HoldsAt (matching : Char → Bool) (text : Text) (chosen : Nat → Bool) : Prop :=
  ∀ position, chosen position = true → text[position]?.any matching = true

variable {matching : Char → Bool} {character : Char} {rest : Text} {chosen : Nat → Bool}

theorem HoldsAt.head (holds : HoldsAt matching (character :: rest) chosen)
    (first : chosen 0 = true) : matching character = true :=
  holds 0 first

theorem HoldsAt.tail (holds : HoldsAt matching (character :: rest) chosen) :
    HoldsAt matching rest fun position => chosen (position + 1) :=
  fun position later => holds (position + 1) later

/-- Deleting characters that end no line leaves a blank beginning blank. -/
theorem blankAhead_deleteAt
    (inside : ∀ character, matching character = true → endsLine character = false)
    {text : Text} (holds : HoldsAt matching text chosen)
    (blank : blankAhead matching text = true) :
    blankAhead matching (text.deleteAt chosen) = true := by
  induction text generalizing chosen with
  | nil => rfl
  | cons character rest ih =>
      rw [blankAhead_cons, Bool.or_eq_true, Bool.and_eq_true] at blank
      rw [deleteAt_cons]
      split
      next gone =>
        -- What is deleted does not end the line, so that the line goes on and is blank.
        rcases blank with ends | ⟨-, blankRest⟩
        · rw [inside character (holds.head gone)] at ends
          contradiction
        · exact ih holds.tail blankRest
      next stays =>
        rw [blankAhead_cons, Bool.or_eq_true, Bool.and_eq_true]
        exact blank.imp_right fun both => ⟨both.1, ih holds.tail both.2⟩

end Text

namespace TrailingSpaces

variable (settings : TrailingSpaces)

/-- Deleting the chosen positions takes nothing but white space from a text and leaves nothing to
report. -/
structure Cleans (text : Text) (chosen : Nat → Bool) : Prop where
  holdsAt : text.HoldsAt settings.whitespace.contains chosen
  scan_eq_nil : settings.scan (text.deleteAt chosen) = []

theorem length_correct_le (text : Text) : (settings.correct text).length ≤ text.length := by
  induction text with
  | nil => simp
  | cons character rest ih =>
      rw [correct_cons]
      split <;> simp only [List.length_cons] <;> omega

/-- A text stays as it is exactly when its first character does not go away and the others stay as
they are. -/
theorem correct_cons_eq_self_iff (character : Char) (rest : Text) :
    settings.correct (character :: rest) = character :: rest ↔
      (settings.whitespace.contains character &&
          Text.blankAhead settings.whitespace.contains rest) = false ∧
        settings.correct rest = rest := by
  rw [correct_cons]
  split
  next goes =>
    have shorter := settings.length_correct_le rest
    simp only [goes, Bool.true_eq_false, false_and, iff_false]
    intro same
    rw [same, List.length_cons] at shorter
    omega
  next stays => simp [stays]

/-- Whatever white space is deleted, if nothing is reported then, the white space at the end of
every line is among it. -/
theorem chosen_of_trails {text : Text} {chosen : Nat → Bool}
    (holds : text.HoldsAt settings.whitespace.contains chosen)
    (clean : settings.correct (text.deleteAt chosen) = text.deleteAt chosen) {position : Nat}
    (trailing : text.trails settings.whitespace.contains position = true) :
    chosen position = true := by
  induction text generalizing chosen position with
  | nil => simp [Text.trails] at trailing
  | cons character rest ih =>
      rw [Text.deleteAt_cons] at clean
      cases position with
      | zero =>
          rw [Text.trails, Bool.and_eq_true] at trailing
          by_contra stays
          rw [if_neg stays, correct_cons_eq_self_iff, Bool.and_eq_false_iff] at clean
          rcases clean.1 with notSpace | notBlank
          · simp [notSpace] at trailing
          · have blank := Text.blankAhead_deleteAt
              (fun _ => settings.endsLine_eq_false_of_contains) holds.tail trailing.2
            exact Bool.noConfusion (notBlank.symm.trans blank)
      | succ position =>
          have cleanRest :
              settings.correct (Text.deleteAt (fun position => chosen (position + 1)) rest) =
                Text.deleteAt (fun position => chosen (position + 1)) rest := by
            split at clean
            next gone => exact clean
            next stays => exact ((settings.correct_cons_eq_self_iff _ _).mp clean).2
          exact ih holds.tail cleanRest trailing

/-- Among all ways to delete white space from a text, at the ends of lines or elsewhere, so that
nothing is reported any more, correction is the least: it is one of them, and each of them deletes
every position that it deletes.  What such a way leaves is therefore part of the corrected text. -/
theorem correct_deletes_least (text : Text) :
    settings.correct text = text.deleteAt (text.trails settings.whitespace.contains) ∧
      settings.Cleans text (text.trails settings.whitespace.contains) ∧
      ∀ chosen, settings.Cleans text chosen →
        (∀ position, text.trails settings.whitespace.contains position = true →
          chosen position = true) ∧
        (text.deleteAt chosen).Sublist (settings.correct text) := by
  have corrects := settings.correct_eq_deleteAt text
  refine ⟨corrects, ⟨?_, ?_⟩, ?_⟩
  · intro position trailing
    rw [Text.trails, Bool.and_eq_true] at trailing
    exact trailing.1
  · rw [← corrects, scan_eq_nil_iff, correct_correct]
  · intro chosen cleans
    have clean := (settings.scan_eq_nil_iff _).mp cleans.scan_eq_nil
    have included : ∀ position, text.trails settings.whitespace.contains position = true →
        chosen position = true :=
      fun position => settings.chosen_of_trails cleans.holdsAt clean
    refine ⟨included, ?_⟩
    rw [corrects]
    exact Text.deleteAt_sublist included text

end TrailingSpaces
end TidyLines
