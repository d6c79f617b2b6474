import TidyLines.Proofs.FileTree.Ways
import TidyLines.Proofs.Path.Ancestors

/-!
# The paths of addresses

Every address has an absolute path.  Going up from the path is going up from the address
(`FileTree.above?_pathOf`), and where no links are on the way the path leads to the address
(`FileTree.eq_of_resolve_pathOf`).
-/

namespace TidyLines

namespace FileTree

variable {address : Address}

/-- A relative path read from the directory at an address. -/
theorem pathOf_join (noEmpty : "" ∉ address) {segments : List String} (nonempty : segments ≠ [])
    (relative : (Path.mk segments).isAbsolute = false) :
    (pathOf address).join ⟨segments⟩ = pathOf (address ++ segments) := by
  cases address with
  | nil =>
      obtain ⟨segment, others, rfl⟩ := List.exists_cons_of_ne_nil nonempty
      rw [Path.join, relative]
      rfl
  | cons name others =>
      have notClosed : (pathOf (name :: others)).segments.getLast? ≠ some "" := by
        change ("" :: name :: others).getLast? ≠ some ""
        rw [List.getLast?_cons_cons]
        exact fun lastIsEmpty => noEmpty (List.mem_of_getLast? lastIsEmpty)
      rw [Path.join, relative, if_neg Bool.false_ne_true, if_neg notClosed]
      rfl

theorem segments_pathOf (nonempty : address ≠ []) : (pathOf address).segments = "" :: address := by
  cases address with
  | nil => exact absurd rfl nonempty
  | cons name others => rfl

theorem components_pathOf (address : Address) :
    (pathOf address).components = .root :: address.filterMap Path.Component.ofSegment? := by
  cases address <;> rfl

variable {above : Address} {name : String}

theorem parent?_pathOf_concat (areNames : ∀ other ∈ above, Path.IsName other)
    (isName : Path.IsName name) : (pathOf (above ++ [name])).parent? = some (pathOf above) := by
  have spelled : pathOf (above ++ [name]) = ⟨"" :: (above ++ [name])⟩ := by
    rw [← segments_pathOf (List.append_ne_nil_of_right_ne_nil above (List.cons_ne_nil name []))]
  have anchored : (Path.mk ("" :: (above ++ [name]))).anchor = some .root := by
    rw [Path.anchor_cons "" fun _ => by simp, if_pos rfl]
  rw [spelled, Path.parent?, Path.body, anchored, Option.isSome_some, if_pos rfl, List.tail_cons,
    Path.trimEnd_concat isName]
  split
  next blank => simp at blank
  next =>
    rw [List.dropLast_concat, Path.ofAnchored, Path.trimEnd_of_names areNames]
    cases above <;> rfl

/-- The path of an address goes up as the address does. -/
theorem above?_pathOf (areNames : ∀ other ∈ address, Path.IsName other) (steps : Nat) :
    (pathOf address).above? steps =
      if steps ≤ address.length then some (pathOf (address.take (address.length - steps)))
      else none := by
  induction steps generalizing address with
  | zero => simp [Path.above?]
  | succ steps ih =>
      rw [Path.above?]
      rcases List.eq_nil_or_concat' address with rfl | ⟨above, name, rfl⟩
      · rfl
      · have aboveNames : ∀ other ∈ above, Path.IsName other :=
          fun other member => areNames other (List.mem_append_left _ member)
        rw [parent?_pathOf_concat aboveNames (areNames name (by simp)), Option.bind_some,
          ih aboveNames, List.length_append, List.length_singleton, Nat.add_sub_add_right,
          List.take_append_of_le_length (Nat.sub_le _ _)]
        simp only [Nat.add_le_add_iff_right]

/-- The path of an entry leads nowhere else, unless the entry or what is above it is a link. -/
theorem eq_of_resolve_pathOf {tree : FileTree} (isName : Path.IsName name)
    (leadsAbove : tree.walkTo false linkBudget [] above = .ok above)
    (noLink : ∀ target, tree.get? (above ++ [name]) ≠ some (.link target)) {directory : Address}
    (leads : tree.resolve directory (pathOf (above ++ [name])) = .ok address) :
    address = above ++ [name] := by
  have nonempty := List.append_ne_nil_of_right_ne_nil above (List.cons_ne_nil name [])
  have absolute : (pathOf (above ++ [name])).isAbsolute = true := by
    obtain ⟨first, others, isCons⟩ := List.exists_cons_of_ne_nil nonempty
    rw [isCons]
    rfl
  have fromRoot : tree.isDirectoryAt [] = true := rfl
  have silent : Path.isTrivial "" = true := rfl
  have way := (resolve_eq_ok_iff.mp leads).2
  obtain ⟨left, onward⟩ := exists_walkTo_append leadsAbove
  rw [startOf, if_pos absolute, segments_pathOf nonempty, walkTo, if_pos fromRoot, if_pos silent,
    onward] at way
  exact eq_of_walkTo_name isName noLink way

end FileTree
end TidyLines
