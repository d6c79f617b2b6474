import Mathlib.Data.List.TakeWhile
import TidyLines.Proofs.Path.Below

/-!
# A path and its parent

The parent of a path is spelled without the segments that say nothing at its end, and a parent that
would be spelled by nothing gets a spelling of its own.  Whatever becomes of the spelling, a path
that ends in a name is seen from its parent as that name, and the name joined to the parent is the
path again but for segments that say nothing (`Path.exists_parent`).
-/

namespace TidyLines

namespace Path

/-- Only segments that say nothing are left out at the end. -/
theorem exists_trimEnd_append (segments : List String) :
    ∃ skipped, segments = trimEnd segments ++ skipped ∧
      ∀ segment ∈ skipped, isTrivial segment = true := by
  refine ⟨(segments.reverse.takeWhile isTrivial).reverse, ?_, ?_⟩
  · rw [trimEnd, ← List.reverse_append, List.takeWhile_append_dropWhile, List.reverse_reverse]
  · intro segment member
    exact List.mem_takeWhile_imp (List.mem_reverse.mp member)

/-- The last segment of trimmed segments says something. -/
theorem isTrivial_getLast?_trimEnd (segments : List String) :
    ∀ segment ∈ (trimEnd segments).getLast?, isTrivial segment = false := by
  intro segment isLast
  rw [trimEnd, List.getLast?_reverse] at isLast
  have speaks := List.head?_dropWhile_not isTrivial segments.reverse
  rw [Option.mem_def.mp isLast] at speaks
  simpa using speaks

theorem filterMap_trimEnd (segments : List String) :
    (trimEnd segments).filterMap Component.ofSegment? =
      segments.filterMap Component.ofSegment? := by
  obtain ⟨skipped, split, allTrivial⟩ := exists_trimEnd_append segments
  have silent : skipped.filterMap Component.ofSegment? = [] := by
    rw [List.filterMap_eq_nil_iff]
    exact fun segment member => (ofSegment?_eq_none_iff segment).mpr (allTrivial segment member)
  conv_rhs => rw [split, List.filterMap_append, silent, List.append_nil]

/-! ## Paths put together from their parts -/

/-- The segments that spell an anchor. -/
def anchorSegments : Option Component → List String
  | some .root => [""]
  | some .current => ["."]
  | _ => []

/-- Segments stand behind an anchor.  Where there is none, the first of them must not be taken for
one. -/
inductive Follows : Option Component → List String → Prop
  | root (inner : List String) : Follows (some .root) inner
  | current (inner : List String) : Follows (some .current) inner
  | none {inner : List String} (speaks : ∀ segment ∈ inner.head?, isTrivial segment = false) :
      Follows none inner

variable {anchor : Option Component} {inner : List String} {name : String}

theorem eq_nil_of_filterMap_eq_nil (speaks : ∀ segment ∈ inner.head?, isTrivial segment = false)
    (silent : inner.filterMap Component.ofSegment? = []) : inner = [] := by
  cases inner with
  | nil => rfl
  | cons segment others =>
      have isTrivial := (ofSegment?_eq_none_iff segment).mp
        (List.filterMap_eq_nil_iff.mp silent segment List.mem_cons_self)
      rw [speaks segment rfl] at isTrivial
      cases isTrivial

theorem ofAnchored_of_trimEnd_eq_cons {segment : String} {others : List String}
    (trimmed : trimEnd inner = segment :: others) (follows : Follows anchor inner) :
    ofAnchored anchor inner = ⟨anchorSegments anchor ++ segment :: others⟩ := by
  cases follows <;> simp [ofAnchored, trimmed, anchorSegments]

theorem anchor_body_ofAnchored (follows : Follows anchor inner) :
    (ofAnchored anchor inner).anchor = anchor ∧
      (ofAnchored anchor inner).body.filterMap Component.ofSegment? =
        inner.filterMap Component.ofSegment? := by
  rw [← filterMap_trimEnd inner]
  cases trimmed : trimEnd inner with
  | nil =>
      cases follows <;> simp only [ofAnchored, trimmed] <;> exact ⟨rfl, rfl⟩
  | cons segment others =>
      rw [ofAnchored_of_trimEnd_eq_cons trimmed follows]
      cases follows with
      | root | current => simp [anchorSegments, anchor_cons, body]
      | none speaks =>
          -- The first segment that is kept is the first of all, and no anchor.
          obtain ⟨skipped, split, -⟩ := exists_trimEnd_append inner
          rw [trimmed] at split
          have notTrivial : isTrivial segment = false := speaks segment (by simp [split])
          obtain ⟨notEmpty, notDot⟩ : segment ≠ "" ∧ segment ≠ "." := by
            simpa [isTrivial] using notTrivial
          simp [anchorSegments, anchor_cons, body, notEmpty, notDot]

theorem opens_ofAnchored (follows : Follows anchor inner) :
    (ofAnchored anchor inner).Opens inner := by
  obtain ⟨anchorEq, bodyEq⟩ := anchor_body_ofAnchored follows
  constructor
  case components_eq => rw [components, bodyEq]
  case meaningful =>
    intro unanchored silent
    rw [anchorEq] at unanchored
    subst unanchored
    cases follows with
    | none speaks => exact eq_nil_of_filterMap_eq_nil speaks silent

/-- A name joined to an anchor and segments stands behind them. -/
theorem join_ofAnchored (follows : Follows anchor inner) (isName : IsName name) :
    (ofAnchored anchor inner).join ⟨[name]⟩ =
      ⟨anchorSegments anchor ++ trimEnd inner ++ [name]⟩ := by
  have relative : isAbsolute ⟨[name]⟩ = false := isAbsolute_names (by simpa using isName)
  have speaks := isTrivial_getLast?_trimEnd inner
  cases trimmed : trimEnd inner with
  | nil => cases follows <;> simp [ofAnchored, trimmed, anchorSegments, join, relative, empty]
  | cons segment others =>
      have open_ : (anchorSegments anchor ++ segment :: others).getLast? ≠ some "" := by
        rw [List.getLast?_append_cons, ← trimmed]
        intro closed
        cases speaks "" closed
      rw [ofAnchored_of_trimEnd_eq_cons trimmed follows, join, relative, if_neg Bool.false_ne_true,
        if_neg open_]

theorem trimEnd_concat (isName : IsName name) : trimEnd (inner ++ [name]) = inner ++ [name] := by
  rw [trimEnd, List.reverse_concat,
    List.dropWhile_cons_of_neg (by simp [isName.isTrivial_eq_false]), List.reverse_cons,
    List.reverse_reverse]

/-- A path that ends in a name has an anchor, segments behind it, and the name. -/
theorem exists_body {path : Path} {front : List String} (spelling : path.segments = front ++ [name])
    (isName : IsName name) :
    ∃ inner, Follows path.anchor inner ∧ front = anchorSegments path.anchor ++ inner ∧
      path.body = inner ++ [name] := by
  obtain ⟨segments⟩ := path
  obtain rfl : segments = front ++ [name] := spelling
  cases front with
  | nil =>
      have unanchored : Path.anchor ⟨[name]⟩ = none := anchor_names (by simpa using isName)
      rw [List.nil_append, body, unanchored]
      exact ⟨[], .none (by simp), rfl, rfl⟩
  | cons segment others =>
      have followed : segment = "" → others ++ [name] ≠ [] := by simp
      have anchored := anchor_cons segment followed
      rw [List.cons_append, body, anchored]
      by_cases isEmpty : segment = ""
      · exact ⟨others, by simp [isEmpty, Follows.root, anchorSegments]⟩
      · by_cases isDot : segment = "."
        · exact ⟨others, by simp [isDot, Follows.current, anchorSegments]⟩
        · have speaks : isTrivial segment = false := by simp [isTrivial, isEmpty, isDot]
          refine ⟨segment :: others, ?_⟩
          rw [if_neg isEmpty, if_neg isDot]
          exact ⟨.none (by simpa using speaks), rfl, rfl⟩

/-- A path that ends in a name is put together again from its parent and what is seen of it from
there. -/
structure PutTogether (path base : Path) (front : List String) (name : String) : Prop where
  parent?_eq : path.parent? = some base
  relativeTo_eq : base.relativeTo path = ⟨[name]⟩
  anchor_eq : (base.join ⟨[name]⟩).anchor = path.anchor
  components_eq : (base.join ⟨[name]⟩).components = path.components
  /-- The spelling is the same but for segments that say nothing. -/
  exists_skipped : ∃ kept skipped, front = kept ++ skipped ∧
    (∀ segment ∈ skipped, isTrivial segment = true) ∧ base.join ⟨[name]⟩ = ⟨kept ++ [name]⟩

theorem exists_parent {path : Path} {front : List String}
    (spelling : path.segments = front ++ [name]) (isName : IsName name) :
    ∃ base, PutTogether path base front name := by
  have areNames : ∀ segment ∈ [name], IsName segment := by simpa using isName
  obtain ⟨inner, follows, frontEq, bodyEq⟩ := exists_body spelling isName
  obtain ⟨anchorEq, -⟩ := anchor_body_ofAnchored follows
  have opens := opens_ofAnchored follows
  have joined := join_ofAnchored follows isName
  refine ⟨ofAnchored path.anchor inner, ?_⟩
  constructor
  case parent?_eq =>
    rw [parent?, bodyEq, trimEnd_concat isName]
    split
    next blank => simp at blank
    next => rw [List.dropLast_concat]
  case relativeTo_eq =>
    have left := opens.stripPrefix?_eq anchorEq.symm bodyEq (List.cons_ne_nil name []) areNames
    exact relativeTo_eq_names left areNames
  case anchor_eq =>
    obtain ⟨_, -, joins⟩ := exists_opens_join (ofAnchored path.anchor inner)
    rw [(joins [name] (List.cons_ne_nil name []) areNames).1, anchorEq]
  case components_eq =>
    rw [components_join _ (List.cons_ne_nil name []) areNames, opens.components_eq, anchorEq,
      components, bodyEq, List.filterMap_append, filterMap_ofSegment?_names areNames,
      List.append_assoc]
  case exists_skipped =>
    obtain ⟨skipped, split, allTrivial⟩ := exists_trimEnd_append inner
    refine ⟨anchorSegments path.anchor ++ trimEnd inner, skipped, ?_, allTrivial, joined⟩
    rw [frontEq, List.append_assoc, ← split]

example : (ofString "/a//b/./c").parent? = some (ofString "/a//b") := by decide +kernel

/-! ## Spellings -/

theorem isAbsolute_iff_anchor (path : Path) :
    path.isAbsolute = true ↔ path.anchor = some .root := by
  rw [anchor]
  split
  next absolute => simp [absolute]
  next relative => split <;> simp [relative]

theorem isAbsolute_eq_of_anchor_eq {path other : Path} (same : path.anchor = other.anchor) :
    path.isAbsolute = other.isAbsolute := by
  rw [Bool.eq_iff_iff, isAbsolute_iff_anchor, isAbsolute_iff_anchor, same]

private theorem intercalate_sublist {Item : Type} (separator : List Item)
    {fewer parts : List (List Item)} (sublist : fewer.Sublist parts) :
    (separator.intercalate fewer).Sublist (separator.intercalate parts) := by
  induction sublist with
  | slnil => exact .slnil
  | @cons fewer parts part sublist ih =>
      cases parts with
      | nil => simp [List.sublist_nil.mp sublist]
      | cons next others =>
          rw [List.intercalate_cons_cons]
          exact ih.trans (List.sublist_append_right _ _)
  | @cons_cons fewer parts part sublist ih =>
      cases parts with
      | nil => simp [List.sublist_nil.mp sublist]
      | cons next others =>
          cases fewer with
          | nil =>
              rw [List.intercalate_singleton, List.intercalate_cons_cons, List.append_assoc]
              exact List.sublist_append_left _ _
          | cons first rest =>
              rw [List.intercalate_cons_cons, List.intercalate_cons_cons]
              exact ih.append_left _

/-- A path with fewer segments is spelled with fewer characters. -/
theorem toList_text_sublist {path other : Path}
    (sublist : other.segments.Sublist path.segments) :
    other.text.toList.Sublist path.text.toList := by
  rw [text, text, String.toList_intercalate, String.toList_intercalate]
  exact intercalate_sublist _ (sublist.map _)

end Path
end TidyLines
