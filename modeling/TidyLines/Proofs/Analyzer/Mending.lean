import TidyLines.NoBang
import TidyLines.Proofs.TrailingSpaces.Classes

/-!
# Mending by many rules

Rules mend a text one after the other, each the text that the ones before it have left.  When no
rule undoes what another one has reached, a text is settled after one pass: the rules that have had
their turn go on accepting the text, whatever the others make of it
(`Analyzer.accepts_foldl_fixStep`).
-/

namespace TidyLines

namespace Rule

/-- Whether a rule reports nothing in a text. -/
def Accepts (rule : Rule) (text : Text) : Prop := rule.check (.ofText text) = []

/-- Rules that look at nothing but the text, each of which mends what it reports without making
another one report anything. -/
structure Cooperate (rules : List Rule) : Prop where
  onText : ∀ rule ∈ rules, rule.DependsOnText
  mends : ∀ rule ∈ rules, ∀ text, ¬ rule.Accepts text →
    ∃ mended, rule.fix (.ofText text) = some mended ∧ rule.Accepts mended
  spares : ∀ rule ∈ rules, ∀ other ∈ rules, ∀ text mended, ¬ rule.Accepts text →
    rule.fix (.ofText text) = some mended → other.Accepts text → other.Accepts mended

theorem DependsOnText.check_eq_nil_iff {rule : Rule} (onText : rule.DependsOnText)
    (source : Source) : rule.check source = [] ↔ rule.Accepts source.text := by
  rw [Accepts, ← List.length_eq_zero_iff, ← List.length_eq_zero_iff,
    onText.length_check_eq source (.ofText source.text) rfl]

end Rule

namespace Analyzer

/-- The rules that mend texts, in their order. -/
def mendingRules (analyzer : Analyzer) : List Rule := analyzer.enabledRules.filter Rule.fixable

theorem fix_eq_foldl (analyzer : Analyzer) (path : Path) (text : Text) :
    analyzer.fix path text = analyzer.mendingRules.foldl (fixStep path) (text, 0) :=
  rfl

theorem mem_rules_of_mem_mendingRules {analyzer : Analyzer} {rule : Rule}
    (member : rule ∈ analyzer.mendingRules) : rule ∈ analyzer.rules :=
  (List.mem_filter.mp (List.mem_filter.mp member).1).1

/-! ## Rules that cooperate -/

variable {path : Path} {state : Text × Nat} {rule : Rule} {rules : List Rule}

theorem fixStep_of_accepts (onText : rule.DependsOnText) (accepts : rule.Accepts state.1) :
    fixStep path state rule = state := by
  have nothing := (onText.check_eq_nil_iff (.named path state.1)).mpr accepts
  simp only [fixStep, nothing, List.length_nil, if_true]

theorem fixStep_of_not_accepts (onText : rule.DependsOnText) (reports : ¬ rule.Accepts state.1)
    {mended : Text} (mends : rule.fix (.ofText state.1) = some mended) :
    (fixStep path state rule).1 = mended := by
  have something : (rule.check (.named path state.1)).length ≠ 0 := by
    rw [ne_eq, List.length_eq_zero_iff]
    exact mt (onText.check_eq_nil_iff (.named path state.1)).mp reports
  rw [← onText.fix_eq (.named path state.1) (.ofText state.1) rfl] at mends
  simp only [fixStep, mends, if_neg something]

/-- Rules that accept a text do not change it and count nothing. -/
theorem foldl_fixStep_of_accepts (onText : ∀ rule ∈ rules, rule.DependsOnText)
    (accept : ∀ rule ∈ rules, rule.Accepts state.1) :
    rules.foldl (fixStep path) state = state := by
  induction rules with
  | nil => rfl
  | cons rule others ih =>
      obtain ⟨ruleOnText, othersOnText⟩ := List.forall_mem_cons.mp onText
      obtain ⟨ruleAccepts, othersAccept⟩ := List.forall_mem_cons.mp accept
      rw [List.foldl_cons, fixStep_of_accepts ruleOnText ruleAccepts,
        ih othersOnText othersAccept]

section Cooperate

variable (cooperate : Rule.Cooperate rules)

include cooperate

/-- After its turn a rule accepts the text, and so do the rules that did before. -/
theorem accepts_fixStep (path : Path) (state : Text × Nat) (member : rule ∈ rules) :
    rule.Accepts (fixStep path state rule).1 ∧
      ∀ other ∈ rules, other.Accepts state.1 → other.Accepts (fixStep path state rule).1 := by
  have onText := cooperate.onText rule member
  by_cases accepts : rule.Accepts state.1
  · rw [fixStep_of_accepts onText accepts]
    exact ⟨accepts, fun _ _ stays => stays⟩
  · obtain ⟨mended, mends, accepted⟩ := cooperate.mends rule member state.1 accepts
    rw [fixStep_of_not_accepts onText accepts mends]
    exact ⟨accepted, fun other isOther =>
      cooperate.spares rule member other isOther state.1 mended accepts mends⟩

/-- The rules that have had their turn accept the text, and go on doing so while others have
theirs. -/
theorem accepts_foldl_fixStep (path : Path) (passed rest : List Rule) (passedAmong : passed ⊆ rules)
    (restAmong : rest ⊆ rules) (state : Text × Nat)
    (accept : ∀ rule ∈ passed, rule.Accepts state.1) :
    ∀ rule ∈ passed ++ rest, rule.Accepts (rest.foldl (fixStep path) state).1 := by
  induction rest generalizing passed state with
  | nil => simpa using accept
  | cons next others ih =>
      obtain ⟨nextAmong, othersAmong⟩ := List.cons_subset.mp restAmong
      obtain ⟨nextAccepts, keeps⟩ := accepts_fixStep cooperate path state nextAmong
      have nowPassed : passed ++ [next] ⊆ rules :=
        List.append_subset.mpr ⟨passedAmong, List.cons_subset.mpr ⟨nextAmong, List.nil_subset _⟩⟩
      have nowAccept : ∀ rule ∈ passed ++ [next], rule.Accepts (fixStep path state next).1 := by
        intro rule member
        rcases List.mem_append.mp member with before | now
        · exact keeps rule (passedAmong before) (accept rule before)
        · rw [List.mem_singleton.mp now]
          exact nextAccepts
      rw [List.foldl_cons, List.append_cons]
      exact ih (passed ++ [next]) nowPassed othersAmong (fixStep path state next) nowAccept

end Cooperate

/-- After one pass nothing is left to mend in a text. -/
structure Settles (analyzer : Analyzer) (text : Text) : Prop where
  check_eq_nil : ∀ rule ∈ analyzer.enabledRules, rule.fixable = true →
    ∀ source, source.text = analyzer.formatText text → rule.check source = []
  formatText_eq : analyzer.formatText (analyzer.formatText text) = analyzer.formatText text
  fixed_eq_zero : ∀ path, (analyzer.fix path (analyzer.formatText text)).2 = 0

theorem settles_of_cooperate {analyzer : Analyzer}
    (cooperate : Rule.Cooperate analyzer.mendingRules) (text : Text) : analyzer.Settles text := by
  have accepted : ∀ rule ∈ analyzer.mendingRules, rule.Accepts (analyzer.formatText text) :=
    accepts_foldl_fixStep cooperate .empty [] analyzer.mendingRules (List.nil_subset _)
      (List.Subset.refl _) (text, 0) (by simp)
  have unchanged : ∀ path, analyzer.fix path (analyzer.formatText text) =
      (analyzer.formatText text, 0) := by
    intro path
    rw [fix_eq_foldl]
    exact foldl_fixStep_of_accepts cooperate.onText accepted
  constructor
  case check_eq_nil =>
    intro rule enabled fixable source sameText
    have member : rule ∈ analyzer.mendingRules := List.mem_filter.mpr ⟨enabled, fixable⟩
    rw [(cooperate.onText rule member).check_eq_nil_iff, sameText]
    exact accepted rule member
  case formatText_eq => rw [formatText, unchanged]
  case fixed_eq_zero => exact fun path => congrArg Prod.snd (unchanged path)

end Analyzer

/-! ## Classes of white space cooperate -/

namespace TrailingSpaces

theorem accepts_rule_iff (settings : TrailingSpaces) (text : Text) :
    (rule settings).Accepts text ↔ settings.correct text = text :=
  settings.scan_eq_nil_iff text

/-- Of two classes of white space one holds all characters of the other one. -/
theorem covers_total (first second : TrailingSpaces) :
    (∀ character, first.whitespace.contains character = true →
        second.whitespace.contains character = true) ∨
      ∀ character, second.whitespace.contains character = true →
        first.whitespace.contains character = true := by
  obtain ⟨firstClass, -⟩ := first
  obtain ⟨secondClass, -⟩ := second
  cases firstClass with
  | ascii =>
      cases secondClass with
      | ascii => exact Or.inl fun _ => id
      | unicode => exact Or.inl Whitespace.unicode_contains_of_ascii
  | unicode =>
      cases secondClass with
      | ascii => exact Or.inr Whitespace.unicode_contains_of_ascii
      | unicode => exact Or.inl fun _ => id

/-- A text that is correct for one class stays so when it is corrected for another one. -/
theorem correct_correct_of_correct_eq_self {first second : TrailingSpaces} {text : Text}
    (correct : second.correct text = text) :
    second.correct (first.correct text) = first.correct text := by
  rcases covers_total first second with narrower | wider
  · -- There is nothing to correct for the narrower class.
    have unchanged := correct_of_covers_correct narrower text
    rw [correct] at unchanged
    rw [unchanged, correct]
  · exact correct_of_covers_correct wider text

theorem cooperate_rules {rules : List Rule}
    (trailing : ∀ rule ∈ rules, ∃ settings, rule = TrailingSpaces.rule settings) :
    Rule.Cooperate rules := by
  constructor
  case onText =>
    intro rule member
    obtain ⟨settings, rfl⟩ := trailing rule member
    exact settings.dependsOnText_rule
  case mends =>
    intro rule member text _
    obtain ⟨settings, rfl⟩ := trailing rule member
    exact ⟨settings.correct text, rfl,
      (settings.accepts_rule_iff _).mpr (settings.correct_correct text)⟩
  case spares =>
    intro rule member other otherMember text mended _ mends accepts
    obtain ⟨settings, rfl⟩ := trailing rule member
    obtain ⟨otherSettings, rfl⟩ := trailing other otherMember
    obtain rfl := Option.some.inj mends
    rw [accepts_rule_iff] at accepts ⊢
    exact correct_correct_of_correct_eq_self accepts

end TrailingSpaces

namespace Analyzer

/-- When the rules that mend texts cooperate, one pass settles every text: none of them reports
anything in it, and a second pass changes nothing and counts nothing.  Rules against trailing white
space, of whatever classes and in whatever order, do cooperate. -/
theorem cooperating_rules_settle (analyzer : Analyzer) :
    (Rule.Cooperate analyzer.mendingRules → ∀ text, analyzer.Settles text) ∧
      ((∀ rule ∈ analyzer.rules, ∃ settings, rule = TrailingSpaces.rule settings) →
        Rule.Cooperate analyzer.mendingRules ∧ ∀ text, analyzer.Settles text) := by
  refine ⟨settles_of_cooperate, fun trailing => ?_⟩
  have cooperate : Rule.Cooperate analyzer.mendingRules :=
    TrailingSpaces.cooperate_rules fun rule member =>
      trailing rule (mem_rules_of_mem_mendingRules member)
  exact ⟨cooperate, settles_of_cooperate cooperate⟩

/-- An analyzer with rules for both classes of white space, one of them twice. -/
def mixedAnalyzer : Analyzer :=
  { sampleAnalyzer with
    rules := [TrailingSpaces.rule {}, TrailingSpaces.rule { whitespace := .unicode },
      TrailingSpaces.rule {}] }

theorem cooperating_rules_settle_sample :
    Rule.Cooperate mixedAnalyzer.mendingRules ∧
      mixedAnalyzer.fix .empty ['a', ' ', '\u00a0', ' '] = (['a'], 2) ∧
      mixedAnalyzer.Settles ['a', ' ', '\u00a0', ' '] := by
  have trailing : ∀ rule ∈ mixedAnalyzer.rules,
      ∃ settings, rule = TrailingSpaces.rule settings := by
    simp only [mixedAnalyzer, List.forall_mem_cons, List.not_mem_nil, false_implies,
      implies_true, and_true]
    exact ⟨⟨_, rfl⟩, ⟨_, rfl⟩, ⟨_, rfl⟩⟩
  have cooperate := (cooperating_rules_settle mixedAnalyzer).2 trailing
  exact ⟨cooperate.1, by cbv, (cooperating_rules_settle mixedAnalyzer).1 cooperate.1 _⟩

-- An exclamation mark that goes away can bring white space to the end of its line, so that rules
-- against both do not cooperate.
example :
    ([TrailingSpaces.rule {}, NoBang.rule].foldl (fixStep .empty) (['a', ' ', '!'], 0)).1 =
        ['a', ' '] ∧
      (TrailingSpaces.rule {}).check (.ofText ['a', ' ']) ≠ [] := by
  decide

end Analyzer
end TidyLines
