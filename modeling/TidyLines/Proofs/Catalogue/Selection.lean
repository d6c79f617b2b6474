import Mathlib.Data.List.Forall2
import TidyLines.Catalogue

/-!
# Choosing rules by name

A rule answers to its own name and to every way to write its code in capital and small letters
(`Rule.answersTo_iff`).  Which rules a list of names chooses depends on nothing else, so that
choosing is a filter with the laws of filters (`Catalogue.ChoosesByName`).
-/

namespace TidyLines

/-! ## Capital and small letters -/

/-- Characters that are the same, or the capital and the small form of one ASCII letter. -/
def SameButForCase (first second : Char) : Prop :=
  first = second ∨ first.isUpper = true ∧ second.toNat = first.toNat + 32 ∨
    second.isUpper = true ∧ first.toNat = second.toNat + 32

/-- Texts that differ in capital and small ASCII letters only. -/
def IsCaseVariant (first second : String) : Prop :=
  List.Forall₂ SameButForCase first.toList second.toList

theorem isUpper_iff_toNat (character : Char) :
    character.isUpper = true ↔ 65 ≤ character.toNat ∧ character.toNat ≤ 90 := by
  have bounds : character.isUpper = true ↔ 65 ≤ character.val ∧ character.val ≤ 90 :=
    decide_eq_true_iff
  rw [bounds, UInt32.le_iff_toNat_le, UInt32.le_iff_toNat_le]
  exact Iff.rfl

theorem toNat_toLower (character : Char) :
    character.toLower.toNat =
      if character.isUpper = true then character.toNat + 32 else character.toNat := by
  delta Char.toLower
  split
  next upper =>
    have isUpper : character.isUpper = true := decide_eq_true upper
    have bounds := (isUpper_iff_toNat character).mp isUpper
    rw [if_pos isUpper]
    change (character.val + _).toNat = _
    rw [UInt32.toNat_add]
    change (character.toNat + 32) % 2 ^ 32 = _
    omega
  next notUpper =>
    have isOther : ¬ character.isUpper = true := fun upper => notUpper (of_decide_eq_true upper)
    rw [if_neg isOther]

theorem toLower_eq_toLower_iff (first second : Char) :
    first.toLower = second.toLower ↔ SameButForCase first second := by
  simp only [SameButForCase, ← Char.toNat_inj, toNat_toLower, isUpper_iff_toNat]
  split <;> split <;> omega

theorem isCaseVariant_iff (first second : String) :
    IsCaseVariant first second ↔ first.toLower = second.toLower := by
  have characterwise : SameButForCase = fun first second => first.toLower = second.toLower := by
    funext first second
    rw [toLower_eq_toLower_iff]
  have lowered (text : String) : text.toLower.toList = text.toList.map Char.toLower :=
    String.toList_map
  rw [IsCaseVariant, characterwise, ← String.toList_inj, lowered, lowered,
    ← List.forall₂_eq_eq_eq, List.forall₂_map_left_iff, List.forall₂_map_right_iff]

theorem IsCaseVariant.trans {first second third : String} (left : IsCaseVariant first second)
    (right : IsCaseVariant second third) : IsCaseVariant first third := by
  rw [isCaseVariant_iff] at left right ⊢
  exact left.trans right

/-- A rule answers to its name exactly, and to its code in any case. -/
theorem Rule.answersTo_iff (rule : Rule) (name : String) :
    rule.answersTo name = true ↔ name = rule.name ∨ IsCaseVariant rule.code name := by
  rw [answersTo, Bool.or_eq_true, beq_iff_eq, beq_iff_eq, isCaseVariant_iff, eq_comm]

/-! ## Choosing -/

namespace Catalogue

theorem mem_select_iff {rules : List Rule} {names : List String} {rule : Rule} :
    rule ∈ select rules names ↔
      rule ∈ rules ∧ ∃ name ∈ names, name = rule.name ∨ IsCaseVariant rule.code name := by
  rw [select, List.mem_filter, List.any_eq_true]
  simp only [Rule.answersTo_iff]

/-- Whether a rule is chosen can be seen from a list that holds no other rule. -/
theorem isEmpty_select_singleton (rule : Rule) (names : List String) :
    (select [rule] names).isEmpty = !names.any rule.answersTo := by
  rw [select]
  cases chosen : names.any rule.answersTo <;> simp [chosen]

theorem select_congr (rules : List Rule) {first second : List String}
    (sameNames : ∀ name, name ∈ first ↔ name ∈ second) :
    select rules first = select rules second := by
  apply List.filter_congr
  intro rule _
  rw [Bool.eq_iff_iff, List.any_eq_true, List.any_eq_true]
  simp only [sameNames]

theorem select_append (rules : List Rule) (first second : List String) :
    select rules (first ++ second) = rules.filter fun rule =>
      !(select [rule] first).isEmpty || !(select [rule] second).isEmpty := by
  rw [select]
  apply List.filter_congr
  intro rule _
  rw [isEmpty_select_singleton, isEmpty_select_singleton, Bool.not_not, Bool.not_not,
    List.any_append]

theorem select_select_comm (rules : List Rule) (first second : List String) :
    select (select rules first) second = select (select rules second) first := by
  rw [select, select, List.filter_filter, select, select, List.filter_filter]
  simp only [Bool.and_comm]

theorem select_select_self (rules : List Rule) (names : List String) :
    select (select rules names) names = select rules names := by
  rw [select, select, List.filter_filter]
  simp only [Bool.and_self]

/-- The laws of choosing among rules. -/
structure ChoosesByName (rules : List Rule) : Prop where
  congr : ∀ first second, (∀ name, name ∈ first ↔ name ∈ second) →
    select rules first = select rules second
  sublist : ∀ names, (select rules names).Sublist rules
  /-- Names are matched exactly, and codes in any case. -/
  mem_iff : ∀ names rule, rule ∈ select rules names ↔
    rule ∈ rules ∧ ∃ name ∈ names, name = rule.name ∨ IsCaseVariant rule.code name
  mem_append_iff : ∀ first second rule, rule ∈ select rules (first ++ second) ↔
    rule ∈ select rules first ∨ rule ∈ select rules second
  /-- Each occurrence of a rule is kept where one of the two lists keeps the rule alone. -/
  append : ∀ first second, select rules (first ++ second) = rules.filter fun rule =>
    !(select [rule] first).isEmpty || !(select [rule] second).isEmpty
  self : ∀ names, select (select rules names) names = select rules names
  comm : ∀ first second,
    select (select rules first) second = select (select rules second) first
  /-- A code may be written anew in any case. -/
  recase : ∀ before item other after, ∀ rule ∈ select rules (before ++ item :: after),
    IsCaseVariant rule.code item → IsCaseVariant item other →
      rule ∈ select rules (before ++ other :: after)

theorem choosesByName (rules : List Rule) : ChoosesByName rules where
  congr _ _ := select_congr rules
  sublist _ := List.filter_sublist
  mem_iff _ _ := mem_select_iff
  mem_append_iff first second rule := by
    rw [mem_select_iff, mem_select_iff, mem_select_iff, ← and_or_left, ← exists_or]
    simp only [List.mem_append, or_and_right]
  append := select_append rules
  self := select_select_self rules
  comm := select_select_comm rules
  recase before item other after rule chosen isCode recased := by
    refine mem_select_iff.mpr ⟨(mem_select_iff.mp chosen).1, other, ?_⟩
    exact ⟨List.mem_append_right before List.mem_cons_self, Or.inr (isCode.trans recased)⟩

/-! ## Unknown names -/

theorem isNone_find? (name : String) : (find? name).isNone = (select all [name]).isEmpty := by
  rw [Bool.eq_iff_iff, Option.isNone_iff_eq_none, List.isEmpty_iff, find?, List.find?_eq_none,
    select, List.filter_eq_nil_iff]
  simp

/-- The names that are unknown are those that choose nothing. -/
theorem unknownNames_eq_filter (names : List String) :
    unknownNames names = names.filter fun name => (select all [name]).isEmpty := by
  simp only [unknownNames, isNone_find?]

end Catalogue

end TidyLines
