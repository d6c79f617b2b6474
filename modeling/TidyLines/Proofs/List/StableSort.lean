import Mathlib.Data.List.Basic

/-!
# Stable sorting

The library sorts by merging, and keeps elements that are not told apart in the order in which they
came.  This file brings that into the form in which reports use it: sorting and then picking out
some of the elements is picking them out and then sorting (`filter_mergeSort`).
-/

namespace TidyLines.StableSort

variable {Item : Type} {le : Item → Item → Bool}

/-- A new first element goes behind the elements that are strictly less and before all others. -/
theorem mergeSort_cons_eq_insert
    (trans : ∀ first second third, le first second → le second third → le first third)
    (total : ∀ first second, le first second || le second first)
    (item : Item) (items : List Item) :
    (item :: items).mergeSort le =
      (items.mergeSort le).filter (fun other => !le item other) ++
        item :: (items.mergeSort le).filter (le item) := by
  obtain ⟨before, after, sortedCons, sortedTail, less⟩ :=
    List.mergeSort_cons trans total item items
  have sorted := List.pairwise_mergeSort trans total (item :: items)
  rw [sortedCons, List.pairwise_append, List.pairwise_cons] at sorted
  have notLess : ∀ other ∈ after, le item other = true := sorted.2.1.1
  have keptBefore : before.filter (fun other => !le item other) = before :=
    List.filter_eq_self.mpr less
  have keptAfter : after.filter (le item) = after := List.filter_eq_self.mpr notLess
  have noneAfter : after.filter (fun other => !le item other) = [] := by
    rw [List.filter_eq_nil_iff]
    intro other member
    simp [notLess other member]
  have noneBefore : before.filter (le item) = [] := by
    rw [List.filter_eq_nil_iff]
    intro other member
    simpa using less other member
  rw [sortedCons, sortedTail, List.filter_append, List.filter_append, keptBefore, keptAfter,
    noneAfter, noneBefore, List.append_nil, List.nil_append]

theorem filter_mergeSort
    (trans : ∀ first second third, le first second → le second third → le first third)
    (total : ∀ first second, le first second || le second first)
    (chosen : Item → Bool) (items : List Item) :
    (items.mergeSort le).filter chosen = (items.filter chosen).mergeSort le := by
  induction items with
  | nil => simp
  | cons item others ih =>
      by_cases isChosen : chosen item = true
      · rw [List.filter_cons_of_pos isChosen, mergeSort_cons_eq_insert trans total,
          mergeSort_cons_eq_insert trans total, ← ih, List.filter_append,
          List.filter_cons_of_pos isChosen, List.filter_comm, List.filter_comm (le item)]
      · obtain ⟨before, after, sortedCons, sortedTail, -⟩ :=
          List.mergeSort_cons trans total item others
        rw [List.filter_cons_of_neg isChosen, ← ih, sortedCons, sortedTail, List.filter_append,
          List.filter_append, List.filter_cons_of_neg isChosen]

/-- Elements that tie with one another stay in the order in which they came. -/
theorem filter_mergeSort_of_ties
    (trans : ∀ first second third, le first second → le second third → le first third)
    (total : ∀ first second, le first second || le second first)
    {chosen : Item → Bool}
    (ties : ∀ first second, chosen first = true → chosen second = true → le first second = true)
    (items : List Item) :
    (items.mergeSort le).filter chosen = items.filter chosen := by
  rw [filter_mergeSort trans total]
  apply List.mergeSort_of_pairwise
  apply List.pairwise_of_forall_mem_list
  intro first firstMember second secondMember
  exact ties first second (List.mem_filter.mp firstMember).2 (List.mem_filter.mp secondMember).2

end TidyLines.StableSort
