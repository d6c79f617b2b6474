import Mathlib.Data.List.Basic
import TidyLines.Path

/-!
# Paths below a root

A walk joins the names of a file to the spelling of the root, and a report takes the root off again.
Both keep spellings, while what is taken off is compared component by component.  This file proves
that the way there and back ends at the names (`Path.relativeTo_join`) for every spelling of the
root, and that the order of paths tells lists of names apart (`Path.order_names_eq_iff`).
-/

namespace TidyLines

namespace Path

/-- What the name of an entry in a directory can be. -/
structure IsName (name : String) : Prop where
  ne_empty : name ≠ ""
  ne_dot : name ≠ "."
  ne_dots : name ≠ ".."
  no_slash : '/' ∉ name.toList

instance (name : String) : Decidable (IsName name) :=
  decidable_of_iff (name ≠ "" ∧ name ≠ "." ∧ name ≠ ".." ∧ '/' ∉ name.toList)
    ⟨fun ⟨notEmpty, notDot, notDots, noSlash⟩ => ⟨notEmpty, notDot, notDots, noSlash⟩,
      fun isName => ⟨isName.ne_empty, isName.ne_dot, isName.ne_dots, isName.no_slash⟩⟩

theorem IsName.isTrivial_eq_false {name : String} (isName : IsName name) :
    isTrivial name = false := by
  simp [isTrivial, isName.ne_empty, isName.ne_dot]

theorem IsName.ofSegment?_eq {name : String} (isName : IsName name) :
    Component.ofSegment? name = some (.name name) := by
  simp [Component.ofSegment?, isName.ne_empty, isName.ne_dot, isName.ne_dots]

theorem ofSegment?_eq_none_iff (segment : String) :
    Component.ofSegment? segment = none ↔ isTrivial segment = true := by
  simp only [Component.ofSegment?, isTrivial]
  split
  next trivialSegment => simpa using trivialSegment
  next meaningful =>
    split <;> simpa using meaningful

/-! ## Taking components from the front -/

theorem dropComponents_cons_of_isTrivial {segment : String} (isTrivial : isTrivial segment = true)
    (component : Component) (others : List Component) (rest : List String) :
    dropComponents (component :: others) (segment :: rest) =
      dropComponents (component :: others) rest := by
  rw [dropComponents, dropComponents, List.dropWhile_cons_of_pos isTrivial]

theorem dropComponents_cons_of_ofSegment? {segment : String} {component : Component}
    (meaning : Component.ofSegment? segment = some component) (others : List Component)
    (rest : List String) :
    dropComponents (component :: others) (segment :: rest) = dropComponents others rest := by
  have meaningful : ¬ isTrivial segment = true := by
    rw [← ofSegment?_eq_none_iff, meaning]
    simp
  rw [dropComponents, List.dropWhile_cons_of_neg meaningful]
  simp [meaning]

/-- Segments begin with their own components, and what follows is left over, behind segments that
say nothing. -/
theorem exists_dropComponents_append (front rest : List String) :
    ∃ skipped, (∀ segment ∈ skipped, isTrivial segment = true) ∧
      dropComponents (front.filterMap Component.ofSegment?) (front ++ rest) =
        some (skipped ++ rest) := by
  induction front with
  | nil => exact ⟨[], by simp, rfl⟩
  | cons segment front ih =>
      obtain ⟨skipped, allTrivial, dropped⟩ := ih
      cases meaning : Component.ofSegment? segment with
      | some component =>
          refine ⟨skipped, allTrivial, ?_⟩
          rw [List.filterMap_cons_some meaning, List.cons_append,
            dropComponents_cons_of_ofSegment? meaning, dropped]
      | none =>
          have trivialSegment := (ofSegment?_eq_none_iff segment).mp meaning
          rw [List.filterMap_cons_none meaning, List.cons_append]
          cases components : front.filterMap Component.ofSegment? with
          | cons component others =>
              rw [components] at dropped
              exact ⟨skipped, allTrivial,
                (dropComponents_cons_of_isTrivial trivialSegment component others _).trans dropped⟩
          | nil =>
              -- Nothing is left to take, so nothing is skipped either.
              rw [components] at dropped
              obtain rfl : front = skipped := by
                simpa [dropComponents] using dropped
              refine ⟨segment :: front, ?_, rfl⟩
              simpa [trivialSegment] using allTrivial

/-! ## Lists of names -/

variable {names : List String}

theorem trimEnd_of_names (areNames : ∀ name ∈ names, IsName name) : trimEnd names = names := by
  cases reversed : names.reverse with
  | nil => simp_all [trimEnd]
  | cons name others =>
      have isName : IsName name := areNames name (by rw [← List.mem_reverse, reversed]; simp)
      rw [trimEnd, reversed, List.dropWhile_cons_of_neg (by simp [isName.isTrivial_eq_false]),
        ← reversed, List.reverse_reverse]

/-- Names are what is left of segments that begin with nothing of meaning. -/
theorem ofBody_append_names {skipped : List String}
    (allTrivial : ∀ segment ∈ skipped, isTrivial segment = true)
    (nonempty : names ≠ []) (areNames : ∀ name ∈ names, IsName name) :
    ofBody (skipped ++ names) = ⟨names⟩ := by
  obtain ⟨name, others, rfl⟩ := List.exists_cons_of_ne_nil nonempty
  have isName : IsName name := areNames name (by simp)
  have dropped : (skipped ++ name :: others).dropWhile isTrivial = name :: others := by
    rw [List.dropWhile_append_of_pos allTrivial,
      List.dropWhile_cons_of_neg (by simp [isName.isTrivial_eq_false])]
  rw [ofBody, dropped, trimEnd_of_names areNames]

theorem isAbsolute_names (areNames : ∀ name ∈ names, IsName name) :
    isAbsolute ⟨names⟩ = false := by
  cases names with
  | nil => rfl
  | cons name others =>
      have notEmpty := (areNames name (by simp)).ne_empty
      cases others <;> simp [isAbsolute, notEmpty]

theorem anchor_names (areNames : ∀ name ∈ names, IsName name) : anchor ⟨names⟩ = none := by
  have notDot : names.head? ≠ some "." := by
    intro startsWithDot
    exact (areNames "." (List.mem_of_head? startsWithDot)).ne_dot rfl
  simp [anchor, isAbsolute_names areNames, notDot]

theorem filterMap_ofSegment?_names (areNames : ∀ name ∈ names, IsName name) :
    names.filterMap Component.ofSegment? = names.map .name := by
  rw [← List.filterMap_eq_map]
  apply List.filterMap_congr
  intro name member
  exact (areNames name member).ofSegment?_eq

theorem components_names (areNames : ∀ name ∈ names, IsName name) :
    components ⟨names⟩ = names.map .name := by
  rw [components, body, anchor_names areNames]
  simp [filterMap_ofSegment?_names areNames]

/-! ## There and back -/

/-- The first of several segments decides how a path is anchored. -/
theorem anchor_cons (segment : String) {others : List String}
    (nonempty : segment = "" → others ≠ []) :
    anchor ⟨segment :: others⟩ =
      if segment = "" then some .root else if segment = "." then some .current else none := by
  by_cases isEmpty : segment = ""
  · obtain ⟨other, more, rfl⟩ := List.exists_cons_of_ne_nil (nonempty isEmpty)
    simp [anchor, isAbsolute, isEmpty]
  · have relative : isAbsolute ⟨segment :: others⟩ = false := by
      cases others <;> simp [isAbsolute, isEmpty]
    simp [anchor, relative, isEmpty]

/-- The part of a path that is left when its front, which names are joined to, has been cut down to
what follows the anchor. -/
structure Opens (base : Path) (inner : List String) : Prop where
  components_eq :
    base.components = base.anchor.toList ++ inner.filterMap Component.ofSegment?
  /-- Only behind an anchor can a path have segments and still say nothing. -/
  meaningful : base.anchor = none → inner.filterMap Component.ofSegment? = [] → inner = []

private theorem opens_of_segments {base : Path} {segment : String} {front closing : List String}
    (spelling : base.segments = segment :: (front ++ closing))
    (closes : closing = [] ∧ (segment = "" → front ≠ []) ∨ closing = [""]) :
    ∃ inner, base.Opens inner ∧ ∀ names, names ≠ [] →
      anchor ⟨segment :: (front ++ names)⟩ = base.anchor ∧
        body ⟨segment :: (front ++ names)⟩ = inner ++ names := by
  obtain ⟨segments⟩ := base
  obtain rfl : segments = segment :: (front ++ closing) := spelling
  have followed : segment = "" → front ++ closing ≠ [] := by
    rcases closes with ⟨rfl, nonempty⟩ | rfl
    · simpa using nonempty
    · simp
  have silent : closing.filterMap Component.ofSegment? = [] := by
    rcases closes with ⟨rfl, -⟩ | rfl <;> rfl
  by_cases isAnchor : segment = "" ∨ segment = "."
  · refine ⟨front, ⟨?_, ?_⟩, ?_⟩
    · rcases isAnchor with rfl | rfl <;> simp [components, body, anchor_cons, followed, silent]
    · rcases isAnchor with rfl | rfl <;> simp [anchor_cons, followed]
    · intro names nonempty
      rcases isAnchor with rfl | rfl <;> simp [body, anchor_cons, followed, nonempty]
  · obtain ⟨notEmpty, notDot⟩ := not_or.mp isAnchor
    have means : Component.ofSegment? segment ≠ none := by
      rw [Ne, ofSegment?_eq_none_iff]
      simp [isTrivial, notEmpty, notDot]
    obtain ⟨component, meaning⟩ := Option.ne_none_iff_exists'.mp means
    refine ⟨segment :: front, ⟨?_, ?_⟩, ?_⟩
    · simp [components, body, anchor_cons, notEmpty, notDot, silent, meaning]
    · simp [meaning]
    · intro names nonempty
      simp [body, anchor_cons, notEmpty, notDot]

private theorem opens_of_blank {base : Path} (blank : base.segments = [] ∨ base.segments = [""]) :
    base.Opens [] ∧ base.anchor = none := by
  obtain ⟨segments⟩ := base
  rcases blank with rfl | rfl <;> exact ⟨⟨rfl, fun _ _ => rfl⟩, rfl⟩

/-- Names are joined to the spelling of a path less one slash at its end. -/
theorem exists_front (base : Path) :
    ∃ front closing, base.segments = front ++ closing ∧
      (closing = [] ∧ front.getLast? ≠ some "" ∨ closing = [""]) ∧
      ∀ names : List String, (∀ name ∈ names, IsName name) →
        base.join ⟨names⟩ = ⟨front ++ names⟩ := by
  by_cases closed : base.segments.getLast? = some ""
  · refine ⟨base.segments.dropLast, [""], (List.dropLast_append_getLast? "" closed).symm,
      Or.inr rfl, fun names areNames => ?_⟩
    simp [join, isAbsolute_names areNames, closed]
  · refine ⟨base.segments, [], (List.append_nil _).symm, Or.inl ⟨rfl, closed⟩,
      fun names areNames => ?_⟩
    simp [join, isAbsolute_names areNames, closed]

/-- Joining names keeps the anchor of a path and puts the names behind its body. -/
theorem exists_opens_join (base : Path) :
    ∃ inner, base.Opens inner ∧
      ∀ names, names ≠ [] → (∀ name ∈ names, IsName name) →
        (base.join ⟨names⟩).anchor = base.anchor ∧ (base.join ⟨names⟩).body = inner ++ names := by
  obtain ⟨front, closing, spelling, closes, joined⟩ := base.exists_front
  cases front with
  | nil =>
      have blank : base.segments = [] ∨ base.segments = [""] := by
        rw [spelling]
        exact closes.imp (fun ⟨silent, _⟩ => silent) id
      obtain ⟨opens, unanchored⟩ := opens_of_blank blank
      refine ⟨[], opens, fun names _ areNames => ?_⟩
      have anchorEq : anchor ⟨names⟩ = none := anchor_names areNames
      simp [joined names areNames, unanchored, body, anchorEq]
  | cons segment front =>
      have followed : closing = [] ∧ (segment = "" → front ≠ []) ∨ closing = [""] := by
        refine closes.imp_left fun ⟨silent, open_⟩ => ⟨silent, ?_⟩
        rintro rfl rfl
        exact open_ rfl
      obtain ⟨inner, opens, follows⟩ := opens_of_segments spelling followed
      refine ⟨inner, opens, fun names nonempty areNames => ?_⟩
      rw [joined names areNames]
      exact follows names nonempty

/-- Joining names puts them behind the parts of a path. -/
theorem components_join (base : Path) (nonempty : names ≠ [])
    (areNames : ∀ name ∈ names, IsName name) :
    (base.join ⟨names⟩).components = base.components ++ names.map .name := by
  obtain ⟨inner, opens, joined⟩ := base.exists_opens_join
  obtain ⟨anchorEq, bodyEq⟩ := joined names nonempty areNames
  rw [components, anchorEq, bodyEq, List.filterMap_append, filterMap_ofSegment?_names areNames,
    ← List.append_assoc, ← opens.components_eq]

/-- A path that goes on in names behind another one is those names without its parts. -/
theorem Opens.stripPrefix?_eq {base path : Path} {inner : List String} (opens : base.Opens inner)
    (anchorEq : path.anchor = base.anchor) (bodyEq : path.body = inner ++ names)
    (nonempty : names ≠ []) (areNames : ∀ name ∈ names, IsName name) :
    base.stripPrefix? path = some ⟨names⟩ := by
  obtain ⟨skipped, allTrivial, dropped⟩ := exists_dropComponents_append inner names
  have left : ofBody (skipped ++ names) = ⟨names⟩ :=
    ofBody_append_names allTrivial nonempty areNames
  rw [stripPrefix?, opens.components_eq, anchorEq, bodyEq]
  cases anchored : base.anchor with
  | some component => simp [dropped, left]
  | none =>
      cases means : inner.filterMap Component.ofSegment? with
      | nil =>
          obtain rfl := opens.meaningful anchored means
          obtain ⟨name, others, rfl⟩ := List.exists_cons_of_ne_nil nonempty
          simp [ofAnchored, trimEnd_of_names areNames]
      | cons component others =>
          rw [means] at dropped
          simp [dropped, left]

/-- Without the parts of a path, the names that were joined to it are left. -/
theorem stripPrefix?_join (base : Path) (nonempty : names ≠ [])
    (areNames : ∀ name ∈ names, IsName name) :
    base.stripPrefix? (base.join ⟨names⟩) = some ⟨names⟩ := by
  obtain ⟨inner, opens, joined⟩ := base.exists_opens_join
  obtain ⟨anchorEq, bodyEq⟩ := joined names nonempty areNames
  exact opens.stripPrefix?_eq anchorEq bodyEq nonempty areNames

/-- Names that are left of a path are what is seen of it. -/
theorem relativeTo_eq_names {base path : Path} (left : base.stripPrefix? path = some ⟨names⟩)
    (areNames : ∀ name ∈ names, IsName name) : base.relativeTo path = ⟨names⟩ := by
  have notEmpty : (⟨names⟩ : Path) ≠ empty := by
    rintro ⟨⟩
    exact (areNames "" (by simp)).ne_empty rfl
  rw [relativeTo, left]
  simp [notEmpty]

/-- The names that were joined to a path are what is seen from it. -/
theorem relativeTo_join (base : Path) (nonempty : names ≠ [])
    (areNames : ∀ name ∈ names, IsName name) :
    base.relativeTo (base.join ⟨names⟩) = ⟨names⟩ :=
  relativeTo_eq_names (base.stripPrefix?_join nonempty areNames) areNames

/-! ## The order of paths -/

namespace Component

theorem eq_of_rank_eq_of_text_eq {first second : Component} (sameRank : first.rank = second.rank)
    (sameText : first.text = second.text) : first = second := by
  cases first <;> cases second <;> simp_all [rank, text]

instance : Std.TransCmp order :=
  inferInstanceAs (Std.TransCmp (compareLex (compareOn rank) (compareOn text)))

instance : Std.LawfulEqCmp order where
  eq_of_compare {first second} tie := by
    obtain ⟨sameRank, sameText⟩ := compareLex_eq_eq.mp tie
    exact eq_of_rank_eq_of_text_eq (Std.LawfulEqOrd.eq_of_compare sameRank)
      (Std.LawfulEqOrd.eq_of_compare sameText)

end Component

instance : Std.TransCmp order where
  eq_swap := by
    intro first second
    exact @Std.OrientedCmp.eq_swap _ (List.compareLex Component.order) _ _ _
  isLE_trans := by
    intro first second third
    exact @Std.TransCmp.isLE_trans _ (List.compareLex Component.order) _ _ _ _

theorem order_eq_iff (first second : Path) :
    first.order second = .eq ↔ first.components = second.components :=
  @Std.LawfulEqCmp.compare_eq_iff_eq _ (List.compareLex Component.order) _ _ _

/-- Lists of names are tied in the order only when they are the same. -/
theorem order_names_eq_iff {first second : List String}
    (firstNames : ∀ name ∈ first, IsName name) (secondNames : ∀ name ∈ second, IsName name) :
    order ⟨first⟩ ⟨second⟩ = .eq ↔ first = second := by
  rw [order_eq_iff, components_names firstNames, components_names secondNames]
  refine List.map_inj_right ?_
  rintro name other ⟨⟩
  rfl

end Path
end TidyLines
