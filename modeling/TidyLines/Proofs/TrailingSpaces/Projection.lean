import TidyLines.Proofs.TrailingSpaces.Edits
import TidyLines.Proofs.TrailingSpaces.Reference

/-!
# Correction as a projection

The texts in which a scan finds nothing are those that correction leaves alone, and correction
always ends in one of them.  The first half is bookkeeping: the edits that a scan suggests carry
the correction out, and each of them takes at least one byte away.  The second half is idempotence,
which holds although a corrected text need not have the lines of the text that it came from.
-/

namespace TidyLines.TrailingSpaces

variable (settings : TrailingSpaces)

/-- A scan finds nothing in a text exactly when correction does not change it. -/
theorem scan_eq_nil_iff (text : Text) :
    settings.scan text = [] ↔ settings.correct text = text := by
  rw [scan_eq_map_places, List.map_eq_nil_iff]
  constructor
  · intro noPlaces
    have carriedOut := settings.applyAll_places_split .empty text
    rw [noPlaces] at carriedOut
    exact carriedOut.symm
  · intro unchanged
    have total := settings.length_sum_places_split .empty text
    rw [unchanged] at total
    cases found : settings.places .empty (PlacedLine.split text) with
    | nil => rfl
    | cons place others =>
        have member : place ∈ settings.places .empty (PlacedLine.split text) := by
          rw [found]
          exact List.mem_cons_self
        have positive := (settings.holdsCharacters_of_mem_places_split .empty member).nonempty
        rw [found, List.map_cons, List.sum_cons] at total
        omega

/-- Correction is a projection onto the texts that a scan accepts. -/
theorem correct_projects_onto_clean (text : Text) :
    settings.scan (settings.correct text) = [] ∧
      settings.correct (settings.correct text) = settings.correct text ∧
      (settings.scan text = [] ↔ settings.correct text = text) :=
  ⟨(settings.scan_eq_nil_iff _).mpr (settings.correct_correct text),
    settings.correct_correct text, settings.scan_eq_nil_iff text⟩

end TidyLines.TrailingSpaces
