import TidyLines.Proofs.Path.Parent

/-!
# A path and what is above it

The parent of a path has its parts but for the last one (`Path.exists_components_of_parent?`), so
that going up ends.  The list of a path and the directories above it has room for all of them: its
items are what going up step by step leads to (`Path.getElem?_ancestors`).
-/

namespace TidyLines.Path

/-- The directory a number of steps above a path. -/
def above? : Nat → Path → Option Path
  | 0, path => some path
  | steps + 1, path => path.parent?.bind (above? steps)

variable {path parent : Path}

/-- The first segment of a path without an anchor says something, if any segment does. -/
theorem head?_trimEnd_of_unanchored (unanchored : path.anchor = none) :
    ∀ segment ∈ (trimEnd path.body).head?, isTrivial segment = false := by
  obtain ⟨segments⟩ := path
  intro segment isFirst
  rw [body, unanchored] at isFirst
  obtain ⟨skipped, split, -⟩ := exists_trimEnd_append segments
  cases trimmed : trimEnd segments with
  | nil => simp [trimmed] at isFirst
  | cons first others =>
      obtain rfl : first = segment := by simpa [trimmed] using isFirst
      rw [trimmed] at split
      by_cases alone : others ++ skipped = []
      · -- A single segment is trimmed unless it says something.
        have kept := isTrivial_getLast?_trimEnd segments
        rw [trimmed, (List.append_eq_nil_iff.mp alone).1] at kept
        exact kept first rfl
      · rw [split, List.cons_append, anchor_cons first fun _ => alone] at unanchored
        by_cases isEmpty : first = ""
        · simp [isEmpty] at unanchored
        · by_cases isDot : first = "."
          · simp [isDot] at unanchored
          · simp [isTrivial, isEmpty, isDot]

theorem follows_dropLast_trimEnd (path : Path) :
    Follows path.anchor (trimEnd path.body).dropLast := by
  have anchors : path.anchor = some .root ∨ path.anchor = some .current ∨ path.anchor = none := by
    rw [anchor]
    split
    · simp
    · split <;> simp
  rcases anchors with isRoot | isCurrent | unanchored
  · rw [isRoot]
    exact .root _
  · rw [isCurrent]
    exact .current _
  · rw [unanchored]
    refine .none fun segment isFirst => head?_trimEnd_of_unanchored unanchored segment ?_
    cases trimmed : trimEnd path.body with
    | nil => simp [trimmed] at isFirst
    | cons first others =>
        cases others with
        | nil => simp [trimmed] at isFirst
        | cons next more => simpa [trimmed] using isFirst

/-- A parent has the parts of the path but for the last one. -/
theorem exists_components_of_parent? (isParent : path.parent? = some parent) :
    ∃ component, path.components = parent.components ++ [component] := by
  rw [parent?] at isParent
  have bodyEq := filterMap_trimEnd path.body
  have follows := path.follows_dropLast_trimEnd
  have speaks := isTrivial_getLast?_trimEnd path.body
  split at isParent
  next blank =>
    rw [blank, List.filterMap_nil] at bodyEq
    split at isParent
    next isCurrent =>
      obtain rfl := Option.some.inj isParent
      exact ⟨.current, by rw [components, isCurrent, ← bodyEq]; rfl⟩
    next => cases isParent
  next notBlank =>
    obtain rfl := Option.some.inj isParent
    obtain ⟨inner, last, trimmed⟩ := (List.eq_nil_or_concat' _).resolve_left notBlank
    rw [trimmed, List.dropLast_concat] at follows ⊢
    rw [trimmed, List.filterMap_append] at bodyEq
    rw [trimmed, List.getLast?_concat] at speaks
    have means : Component.ofSegment? last ≠ none := by
      rw [Ne, ofSegment?_eq_none_iff, speaks last rfl]
      exact Bool.false_ne_true
    obtain ⟨component, meaning⟩ := Option.ne_none_iff_exists'.mp means
    obtain ⟨anchorEq, innerEq⟩ := anchor_body_ofAnchored follows
    refine ⟨component, ?_⟩
    rw [components, components, anchorEq, innerEq, ← bodyEq, List.append_assoc]
    simp [meaning]

theorem length_components_le (path : Path) :
    path.components.length ≤ path.segments.length := by
  have bodyLength := List.length_filterMap_le Component.ofSegment? path.body
  rw [components, List.length_append]
  rw [body] at bodyLength ⊢
  cases anchored : path.anchor with
  | none => simpa [anchored] using bodyLength
  | some component =>
      have nonempty : path.segments ≠ [] := by
        intro blank
        simp [anchor, isAbsolute, blank] at anchored
      have positive := List.length_pos_iff.mpr nonempty
      simp only [anchored, Option.isSome_some, if_true, List.length_tail, Option.toList_some,
        List.length_singleton] at bodyLength ⊢
      omega

theorem getElem?_ancestorsWithin {fuel : Nat} (enough : path.components.length ≤ fuel)
    (steps : Nat) : (ancestorsWithin fuel path)[steps]? = path.above? steps := by
  induction fuel generalizing path steps with
  | zero =>
      cases steps with
      | zero => rfl
      | succ steps =>
          have noParent : path.parent? = none := by
            rw [Option.eq_none_iff_forall_ne_some]
            intro parent isParent
            obtain ⟨component, split⟩ := exists_components_of_parent? isParent
            simp [split] at enough
          simp [ancestorsWithin, above?, noParent]
  | succ fuel ih =>
      cases steps with
      | zero => rfl
      | succ steps =>
          rw [ancestorsWithin, List.getElem?_cons_succ, above?]
          cases isParent : path.parent? with
          | none => simp
          | some parent =>
              obtain ⟨component, split⟩ := exists_components_of_parent? isParent
              rw [split, List.length_append, List.length_singleton] at enough
              exact ih (Nat.le_of_succ_le_succ enough) steps

/-- The list of a path and the directories above it has what going up step by step leads to. -/
theorem getElem?_ancestors (path : Path) (steps : Nat) :
    path.ancestors[steps]? = path.above? steps :=
  getElem?_ancestorsWithin path.length_components_le steps

end TidyLines.Path
