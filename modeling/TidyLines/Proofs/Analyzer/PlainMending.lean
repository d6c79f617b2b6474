import TidyLines.NoBang
import TidyLines.Proofs.Analyzer.Mending

/-!
# Mending without a look at the report

Mending passes over a rule that reports nothing.  This saves time and decides nothing, provided that
no rule changes a text in which it reports nothing (`Rule.IdleWhereClean`).  The result is then a
plain fold over the rules, and what is counted is a sum over the texts that the rules are given.
-/

namespace TidyLines

namespace Rule

/-- Where a rule reports nothing, it has no other text to offer. -/
def IdleWhereClean (rule : Rule) : Prop :=
  ∀ source, rule.check source = [] → (rule.fix source).getD source.text = source.text

/-- The rules against trailing white space and against exclamation marks, and all rules that mend
nothing. -/
inductive IsStock : Rule → Prop
  | trailingSpaces (settings : TrailingSpaces) : IsStock (TrailingSpaces.rule settings)
  | noBang : IsStock NoBang.rule
  | notFixable {rule : Rule} (claim : rule.fixable = false) : IsStock rule
  | withoutFix {rule : Rule} (noFix : ∀ source, rule.fix source = none) : IsStock rule

end Rule

/-! ## Rules that are idle where nothing is reported -/

/-- A text is put together again from its lines if none of them changes. -/
theorem Line.join_map_split_eq_self {change : Line → Line} {text : Text}
    (same : ∀ line ∈ Line.split text, change line = line) :
    Line.join ((Line.split text).map change) = text := by
  rw [List.map_congr_left same, List.map_id', Line.join_split]

namespace NoBang

theorem correctLine_eq_self {line : Line} (accepted : line.content.getLast?.any isBang = false) :
    correctLine line = line := by
  have trimmed : Text.IsTrimmed isBang line.content line.content := by
    refine ⟨⟨[], (List.append_nil _).symm, by simp⟩, ?_⟩
    intro character isLast
    rw [Option.mem_def] at isLast
    rwa [isLast, Option.any_some] at accepted
  rw [correctLine, ← (Text.isTrimmed_iff isBang).mp trimmed]

theorem getLast?_any_isBang_of_check {source : Source} (nothing : check source = []) {line : Line}
    (member : line ∈ Line.split source.text) : line.content.getLast?.any isBang = false := by
  rw [← PlacedLine.toLine_placeFrom 1 0 (Line.split source.text)] at member
  obtain ⟨placed, isPlaced, rfl⟩ := List.mem_map.mp member
  rw [check, List.map_eq_nil_iff, List.filter_eq_nil_iff] at nothing
  exact Bool.eq_false_iff.mpr (nothing placed isPlaced)

theorem idleWhereClean_rule : rule.IdleWhereClean := by
  intro source nothing
  change correct source.text = source.text
  exact Line.join_map_split_eq_self fun line member =>
    correctLine_eq_self (getLast?_any_isBang_of_check nothing member)

end NoBang

theorem TrailingSpaces.idleWhereClean_rule (settings : TrailingSpaces) :
    (rule settings).IdleWhereClean := by
  intro source nothing
  change settings.correct source.text = source.text
  rw [← settings.accepts_rule_iff, ← settings.dependsOnText_rule.check_eq_nil_iff]
  exact nothing

theorem Rule.IsStock.idleWhereClean {rule : Rule} (stock : rule.IsStock)
    (fixable : rule.fixable = true) : rule.IdleWhereClean := by
  cases stock with
  | trailingSpaces settings => exact settings.idleWhereClean_rule
  | noBang => exact NoBang.idleWhereClean_rule
  | notFixable claim => exact Bool.noConfusion (claim.symm.trans fixable)
  | withoutFix noFix =>
      intro source _
      rw [noFix, Option.getD_none]

namespace Analyzer

/-! ## The plain fold -/

/-- A text after the turn of a rule that is not asked what it reports. -/
def mendAlways (path : Path) (text : Text) (rule : Rule) : Text :=
  (rule.fix (.named path text)).getD text

/-- The texts that rules are given in turn, each with its rule. -/
def turns (path : Path) (rules : List Rule) (text : Text) : List (Rule × Text) :=
  rules.zip (rules.scanl (mendAlways path) text)

/-- The number of violations in the text that a rule is given, if the rule can mend it. -/
def mendedCount (path : Path) (turn : Rule × Text) : Nat :=
  if (turn.1.fix (.named path turn.2)).isSome then (turn.1.check (.named path turn.2)).length
  else 0

theorem turns_cons (path : Path) (rule : Rule) (others : List Rule) (text : Text) :
    turns path (rule :: others) text =
      (rule, text) :: turns path others (mendAlways path text rule) := by
  rw [turns, List.scanl_cons, List.zip_cons_cons, turns]

/-- One step with a look at the report is one step without. -/
theorem fixStep_eq_mendAlways {rule : Rule} (idle : rule.IdleWhereClean) (path : Path)
    (state : Text × Nat) :
    fixStep path state rule =
      (mendAlways path state.1 rule, state.2 + mendedCount path (rule, state.1)) := by
  simp only [fixStep, mendAlways, mendedCount]
  split
  next nothing =>
    have unchanged := idle (.named path state.1) (List.eq_nil_of_length_eq_zero nothing)
    rw [nothing, ite_self, Nat.add_zero]
    exact congrArg (·, state.2) unchanged.symm
  next something =>
    cases rule.fix (.named path state.1) <;> rfl

theorem foldl_fixStep_eq_foldl_mendAlways {rules : List Rule}
    (idle : ∀ rule ∈ rules, rule.IdleWhereClean) (path : Path) (text : Text) (count : Nat) :
    rules.foldl (fixStep path) (text, count) =
      (rules.foldl (mendAlways path) text,
        count + ((turns path rules text).map (mendedCount path)).sum) := by
  induction rules generalizing text count with
  | nil => rfl
  | cons rule others ih =>
      obtain ⟨ruleIdle, othersIdle⟩ := List.forall_mem_cons.mp idle
      rw [List.foldl_cons, List.foldl_cons, fixStep_eq_mendAlways ruleIdle, ih othersIdle,
        turns_cons, List.map_cons, List.sum_cons, Nat.add_assoc]

/-- Mending is a fold over the rules that mend texts, in their order and without a look at what they
report; a rule that offers no text leaves it as it is.  The number of violations mended is a sum
over the rules that offer a text: each counts what it reports in the text that it is given. -/
theorem fix_eq_plain_fold (analyzer : Analyzer) (stock : ∀ rule ∈ analyzer.rules, rule.IsStock)
    (text : Text) :
    analyzer.formatText text = analyzer.mendingRules.foldl (mendAlways .empty) text ∧
      ∀ path, analyzer.fix path text =
        (analyzer.mendingRules.foldl (mendAlways path) text,
          ((turns path analyzer.mendingRules text).map (mendedCount path)).sum) := by
  have idle : ∀ rule ∈ analyzer.mendingRules, rule.IdleWhereClean := fun rule member =>
    (stock rule (mem_rules_of_mem_mendingRules member)).idleWhereClean (List.mem_filter.mp member).2
  have fold : ∀ path, analyzer.fix path text =
      (analyzer.mendingRules.foldl (mendAlways path) text,
        ((turns path analyzer.mendingRules text).map (mendedCount path)).sum) := by
    intro path
    rw [fix_eq_foldl, foldl_fixStep_eq_foldl_mendAlways idle, Nat.zero_add]
  refine ⟨?_, fold⟩
  rw [formatText, fold]

/-- A rule that reports every source and mends none, whatever it claims. -/
def reporter (fixable : Bool) : Rule where
  name := "reporter"
  code := "R001"
  fixable
  check source := [{
    code := "R001"
    rule := "reporter"
    severity := .info
    location := { file := source.relativePath, line := 1, column := 1 }
    message := "Seen" }]

/-- An analyzer with rules of all kinds, one of them twice. -/
def stockAnalyzer : Analyzer :=
  { sampleAnalyzer with
    rules := [NoBang.rule, TrailingSpaces.rule {}, reporter true, reporter false, NoBang.rule] }

theorem fix_eq_plain_fold_sample :
    (∀ rule ∈ stockAnalyzer.rules, rule.IsStock) ∧
      stockAnalyzer.fix .empty ['a', '!', ' ', '!'] = (['a'], 3) ∧
      stockAnalyzer.formatText ['a', '!', ' ', '!'] =
        stockAnalyzer.mendingRules.foldl (mendAlways .empty) ['a', '!', ' ', '!'] := by
  have stock : ∀ rule ∈ stockAnalyzer.rules, rule.IsStock := by
    simp only [stockAnalyzer, List.forall_mem_cons, List.not_mem_nil, false_implies,
      implies_true, and_true]
    exact ⟨.noBang, .trailingSpaces {}, .withoutFix fun _ => rfl, .withoutFix fun _ => rfl, .noBang⟩
  exact ⟨stock, by cbv, (stockAnalyzer.fix_eq_plain_fold stock _).1⟩

end Analyzer
end TidyLines
