import TidyLines.Text
import TidyLines.Violation

/-!
# Carrying out replacements

A replacement covers a range of bytes, and carrying it out puts its new text there.  Several
replacements are carried out from the last one to the first one, so that the places of those still
to come stay right.
-/

namespace TidyLines

namespace Replacement

/-- A text after a replacement. -/
def apply (replacement : Replacement) (text : Text) : Text :=
  let location := replacement.location
  text.takeBytes location.offset ++ replacement.newText.toList ++
    text.dropBytes (location.offset + location.length)

/-- A text after several replacements in the order of their places. -/
def applyAll (replacements : List Replacement) (text : Text) : Text :=
  replacements.foldr apply text

/-- A replacement leaves alone what stands before and after its place. -/
theorem apply_append (replacement : Replacement) (before covered after : Text)
    (starts : replacement.location.offset = Text.byteLength before)
    (covers : replacement.location.length = Text.byteLength covered) :
    replacement.apply (before ++ covered ++ after) =
      before ++ replacement.newText.toList ++ after := by
  have ends : replacement.location.offset + replacement.location.length =
      Text.byteLength (before ++ covered) := by
    rw [starts, covers, Text.byteLength_append]
  rw [apply, ends, Text.dropBytes_byteLength_append, starts,
    List.append_assoc before covered after, Text.takeBytes_byteLength_append]

end Replacement

namespace Violation

/-- The replacement that mends a violation, if it suggests one. -/
def replacement? (violation : Violation) : Option Replacement :=
  violation.suggestion.bind Suggestion.replacement

end Violation
end TidyLines
