import Mathlib.Algebra.Ring.Nat
import TidyLines.Proofs.Path.Below

/-!
# Paths and their spellings

A path that was read from a spelling is known by its text alone (`Path.IsSpelled.eq_of_text_eq`),
and so is a path of names.
-/

namespace TidyLines

namespace Path

/-- A path that is the reading of a spelling. -/
def IsSpelled (path : Path) : Prop := ∃ spelling, path = ofString spelling

theorem toList_text (path : Path) :
    path.text.toList = ['/'].intercalate (path.segments.map String.toList) := by
  rw [text, String.toList_intercalate]
  rfl

/-- The text of a path is as long as its segments, with a slash before all but the first. -/
theorem utf8ByteSize_text_cons (first : String) (others : List String) :
    (Path.mk (first :: others)).text.utf8ByteSize =
      first.utf8ByteSize + (others.map fun segment => 1 + segment.utf8ByteSize).sum := by
  induction others generalizing first with
  | nil => simp [text]
  | cons second rest ih =>
      have split : (Path.mk (first :: second :: rest)).text =
          first ++ ("/" ++ (Path.mk (second :: rest)).text) := by
        rw [← String.toList_inj]
        simp [toList_text, List.intercalate_cons_cons]
      have slash : "/".utf8ByteSize = 1 := rfl
      rw [split, String.utf8ByteSize_append, String.utf8ByteSize_append, ih second, slash,
        List.map_cons, List.sum_cons, Nat.add_assoc]

/-- The text of a path has the characters of its segments, and slashes. -/
theorem notMem_toList_text {path : Path} {character : Char} (noSlash : character ≠ '/')
    (notInside : ∀ segment ∈ path.segments, character ∉ segment.toList) :
    character ∉ path.text.toList := by
  obtain ⟨segments⟩ := path
  rw [toList_text]
  induction segments with
  | nil => simp
  | cons first others ih =>
      obtain ⟨notFirst, notLater⟩ := List.forall_mem_cons.mp notInside
      cases others with
      | nil => simpa using notFirst
      | cons second rest =>
          rw [List.map_cons, List.map_cons, List.intercalate_cons_cons]
          simpa [noSlash, notFirst] using ih notLater

@[simp]
theorem text_ofString (spelling : String) : (ofString spelling).text = spelling := by
  have inside : ((ofString spelling).text).toList = spelling.toList := by
    rw [toList_text, ofString, List.map_map]
    simp [Function.comp_def, List.intercalate_splitOn]
  rw [← String.toList_inj, inside]

theorem IsSpelled.ofString_text {path : Path} (isSpelled : path.IsSpelled) :
    ofString path.text = path := by
  obtain ⟨spelling, rfl⟩ := isSpelled
  rw [text_ofString]

theorem IsSpelled.eq_of_text_eq {first second : Path} (firstSpelled : first.IsSpelled)
    (secondSpelled : second.IsSpelled) (same : first.text = second.text) : first = second := by
  rw [← firstSpelled.ofString_text, same, secondSpelled.ofString_text]

/-- Names have no slash, so that they are the segments of their spelling. -/
theorem isSpelled_names {names : List String} (nonempty : names ≠ [])
    (areNames : ∀ name ∈ names, IsName name) : IsSpelled ⟨names⟩ := by
  have apart : ∀ segment ∈ names.map String.toList, '/' ∉ segment := by
    intro segment member
    obtain ⟨name, inNames, rfl⟩ := List.mem_map.mp member
    exact (areNames name inNames).no_slash
  refine ⟨text ⟨names⟩, ?_⟩
  rw [ofString, toList_text, List.splitOn_intercalate '/' apart (by simpa using nonempty),
    List.map_map]
  simp [Function.comp_def]

end Path

end TidyLines
