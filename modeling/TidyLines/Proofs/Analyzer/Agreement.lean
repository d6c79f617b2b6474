import TidyLines.Catalogue
import TidyLines.Proofs.Analyzer.Linting
import TidyLines.Proofs.TrailingSpaces.Projection

/-!
# Linting and formatting agree

Linting reports violations and formatting counts those that it mends, in loops of their own and
under different paths.  With the rules of the catalogue both tell the same story, because their rule
finds nothing in a text exactly when it leaves the text alone (`Analyzer.reports_match`).
-/

namespace TidyLines

/-! ## The rules on offer -/

/-- The rules are those of a configuration, or some of them chosen by name. -/
def Catalogue.Offers (config : Config) (rules : List Rule) : Prop :=
  ∃ listed, ofConfig config = .ok listed ∧
    (rules = listed ∨ ∃ names, rules = select listed names)

namespace Catalogue

theorem exists_of_ofConfig {config : Config} {rules : List Rule}
    (listed : ofConfig config = .ok rules) :
    ∃ settings, rules = [TrailingSpaces.rule settings] := by
  rw [ofConfig] at listed
  cases asked : whitespaceOf config with
  | error error => simp [asked, bind, Except.bind] at listed
  | ok whitespace =>
      simp only [asked, bind, Except.bind, pure, Except.pure, Except.ok.injEq] at listed
      exact ⟨_, listed.symm⟩

/-- What the catalogue offers is the rule against trailing white space or nothing. -/
theorem Offers.cases {config : Config} {rules : List Rule} (offers : Offers config rules) :
    (∃ settings, rules = [TrailingSpaces.rule settings]) ∨ rules = [] := by
  obtain ⟨listed, isListed, rfl | ⟨names, rfl⟩⟩ := offers
  · exact Or.inl (exists_of_ofConfig isListed)
  · obtain ⟨settings, rfl⟩ := exists_of_ofConfig isListed
    cases answers : names.any (TrailingSpaces.rule settings).answersTo with
    | true => exact Or.inl ⟨settings, by simp [select, answers]⟩
    | false => exact Or.inr (by simp [select, answers])

end Catalogue

namespace Analyzer

variable {analyzer : Analyzer} {config : Config} {settings : TrailingSpaces}

theorem enabledRules_of_offers (offers : Catalogue.Offers config analyzer.rules) :
    (∃ settings, analyzer.enabledRules = [TrailingSpaces.rule settings]) ∨
      analyzer.enabledRules = [] := by
  rcases offers.cases with ⟨settings, single⟩ | none
  · rcases analyzer.enabledRules_cases single with onlyRule | noRule
    · exact Or.inl ⟨settings, onlyRule⟩
    · exact Or.inr noRule
  · exact Or.inr (by rw [enabledRules, none, List.filter_nil])

theorem reportsRelatively_of_offers (offers : Catalogue.Offers config analyzer.rules) :
    ∀ rule ∈ analyzer.rules, rule.ReportsRelatively := by
  intro rule member
  rcases offers.cases with ⟨settings, single⟩ | none
  · rw [single, List.mem_singleton] at member
    rw [member]
    exact settings.reportsRelatively_rule
  · rw [none] at member
    cases member

theorem length_lintText (onlyRule : analyzer.enabledRules = [TrailingSpaces.rule settings])
    (name : Path) (text : Text) :
    (analyzer.lintText name text).length = (settings.scan text).length := by
  have sameLocations := congrArg List.length (analyzer.map_location_withSeverity
    (TrailingSpaces.rule settings) (settings.check (.named name text)))
  rw [List.length_map, List.length_map, settings.length_check] at sameLocations
  rw [lintText, lint, onlyRule, List.flatMap_singleton]
  exact sameLocations

/-- Mending by the rule against trailing white space corrects the text, whether or not there is
anything to correct. -/
theorem fixStep_rule (path : Path) (state : Text × Nat) :
    fixStep path state (TrailingSpaces.rule settings) =
      (settings.correct state.1, state.2 + (settings.scan state.1).length) := by
  have sameLength : ((TrailingSpaces.rule settings).check (.named path state.1)).length =
      (settings.scan state.1).length := settings.length_check _
  rw [fixStep, sameLength]
  split
  next nothing =>
    -- The text is left alone, which is what correction would do as well.
    rw [(settings.scan_eq_nil_iff _).mp (List.eq_nil_of_length_eq_zero nothing), nothing]
    rfl
  next something => rfl

theorem fix_eq (onlyRule : analyzer.enabledRules = [TrailingSpaces.rule settings]) (path : Path)
    (text : Text) :
    analyzer.fix path text = (settings.correct text, (settings.scan text).length) := by
  have fixable : analyzer.enabledRules.filter Rule.fixable = [TrailingSpaces.rule settings] := by
    rw [onlyRule]
    rfl
  rw [fix, fixable, List.foldl_cons, List.foldl_nil, fixStep_rule, Nat.zero_add]

theorem fix_eq_self (noRule : analyzer.enabledRules = []) (path : Path) (text : Text) :
    analyzer.fix path text = (text, 0) := by
  rw [fix, noRule]
  rfl

theorem lintText_eq_nil (noRule : analyzer.enabledRules = []) (name : Path) (text : Text) :
    analyzer.lintText name text = [] := by
  rw [lintText, lint, noRule, List.flatMap_nil]

theorem fix_snd_eq_length (offers : Catalogue.Offers config analyzer.rules) (path name : Path)
    (text : Text) : (analyzer.fix path text).2 = (analyzer.lintText name text).length := by
  rcases enabledRules_of_offers offers with ⟨settings, onlyRule⟩ | noRule
  · rw [fix_eq onlyRule, length_lintText onlyRule]
  · rw [fix_eq_self noRule, lintText_eq_nil noRule]
    rfl

/-- Formatting leaves a text alone exactly when linting reports nothing in it. -/
theorem fix_fst_eq_iff (offers : Catalogue.Offers config analyzer.rules) (path name : Path)
    (text : Text) : (analyzer.fix path text).1 = text ↔ analyzer.lintText name text = [] := by
  rcases enabledRules_of_offers offers with ⟨settings, onlyRule⟩ | noRule
  · rw [fix_eq onlyRule, ← settings.scan_eq_nil_iff, ← List.length_eq_zero_iff,
      ← length_lintText onlyRule name, List.length_eq_zero_iff]
  · simp [fix_eq_self noRule, lintText_eq_nil noRule]

end Analyzer

/-! ## Reports that match -/

/-- A report of violations and a report of changes tell the same story. -/
structure LintReport.Matches (linted : LintReport) (formatted : FormatReport) : Prop where
  filesChecked_eq : linted.filesChecked = formatted.filesChecked
  changed_nodup : (formatted.changed.map FileChange.file).Nodup
  mem_changed_iff : ∀ path, path ∈ formatted.changed.map FileChange.file ↔
    ∃ violation ∈ linted.violations, violation.location.file = path
  fixed_eq : ∀ change ∈ formatted.changed,
    change.fixed = linted.violations.countP fun violation => violation.location.file = change.file
  totalFixed_eq : formatted.totalFixed = linted.violations.length
  changed_eq_nil_iff : formatted.changed = [] ↔ linted.violations = []

namespace Analyzer

variable {analyzer : Analyzer} {config : Config} {workspace : Workspace} {files : List FoundFile}

theorem exists_violation_iff (offers : Catalogue.Offers config analyzer.rules) (path : Path) :
    (∃ violation ∈ analyzer.allViolations workspace files, violation.location.file = path) ↔
      path ∈ (analyzer.allChanges workspace files).map FileChange.file := by
  have relative := reportsRelatively_of_offers offers
  simp only [List.mem_map, mem_allChanges]
  constructor
  · rintro ⟨violation, member, rfl⟩
    rw [analyzer.allViolations_eq relative] at member
    obtain ⟨⟨file, text⟩, isChecked, reported⟩ := List.mem_flatMap.mp member
    refine ⟨_, ⟨file, text, isChecked, ?_, rfl⟩,
      (analyzer.file_of_mem_lintText relative reported).symm⟩
    rw [ne_eq, fix_fst_eq_iff offers file.path (analyzer.reportedPath workspace file)]
    exact List.ne_nil_of_mem reported
  · rintro ⟨change, ⟨file, text, isChecked, mended, rfl⟩, rfl⟩
    rw [ne_eq, fix_fst_eq_iff offers file.path (analyzer.reportedPath workspace file)] at mended
    obtain ⟨violation, reported⟩ := List.exists_mem_of_ne_nil _ mended
    refine ⟨violation, ?_, analyzer.file_of_mem_lintText relative reported⟩
    rw [analyzer.allViolations_eq relative]
    exact List.mem_flatMap.mpr ⟨_, isChecked, reported⟩

theorem fixed_eq_countP (wellFormed : workspace.tree.WellFormed)
    (offers : Catalogue.Offers config analyzer.rules)
    (found : analyzer.discover workspace = .ok files) {change : FileChange}
    (member : change ∈ analyzer.allChanges workspace files) :
    change.fixed = (analyzer.allViolations workspace files).countP fun violation =>
      violation.location.file = change.file := by
  obtain ⟨file, text, isChecked, -, rfl⟩ := analyzer.mem_allChanges.mp member
  have apart := analyzer.nodup_map_reportedPath wellFormed found
  rw [List.countP_eq_length_filter,
    analyzer.filter_allViolations (reportsRelatively_of_offers offers) apart isChecked]
  exact fix_snd_eq_length offers file.path _ text

theorem sum_fixed_eq_length (offers : Catalogue.Offers config analyzer.rules) (base : Path)
    (name : FoundFile → Path) (entries : List (FoundFile × Text)) :
    ((entries.filterMap (analyzer.changeOf base)).map FileChange.fixed).sum =
      (entries.flatMap fun entry => analyzer.lintText (name entry.1) entry.2).length := by
  induction entries with
  | nil => rfl
  | cons entry others ih =>
      have counted := fix_snd_eq_length offers entry.1.path (name entry.1) entry.2
      rw [List.flatMap_cons, List.length_append, ← ih, ← counted]
      by_cases unchanged : (analyzer.fix entry.1.path entry.2).1 = entry.2
      · -- Formatting leaves the text out, and linting says nothing about it.
        rw [(fix_fst_eq_iff offers _ (name entry.1) _).mp unchanged, List.length_nil] at counted
        simp [changeOf, unchanged, counted]
      · simp [changeOf, unchanged]

theorem totalFixed_eq_length (offers : Catalogue.Offers config analyzer.rules)
    (checkedCount : Nat) :
    FormatReport.totalFixed ⟨analyzer.allChanges workspace files, checkedCount⟩ =
      (analyzer.allViolations workspace files).length := by
  have asSum : FormatReport.totalFixed ⟨analyzer.allChanges workspace files, checkedCount⟩ =
      ((analyzer.allChanges workspace files).map FileChange.fixed).sum := by
    rw [FormatReport.totalFixed, List.sum, List.foldr_map]
  rw [asSum, allChanges, sum_fixed_eq_length offers _ (analyzer.reportedPath workspace),
    ← analyzer.allViolations_eq (reportsRelatively_of_offers offers)]

theorem matches_of_discover (wellFormed : workspace.tree.WellFormed)
    (offers : Catalogue.Offers config analyzer.rules)
    (found : analyzer.discover workspace = .ok files) :
    LintReport.Matches
      ⟨(analyzer.allViolations workspace files).mergeSort inOrder, (checked files).length⟩
      ⟨analyzer.allChanges workspace files, (checked files).length⟩ := by
  have sorted := List.mergeSort_perm (analyzer.allViolations workspace files) inOrder
  constructor
  case filesChecked_eq => rfl
  case changed_nodup => exact analyzer.nodup_map_file_allChanges wellFormed found
  case mem_changed_iff =>
    intro path
    rw [← exists_violation_iff offers]
    simp only [sorted.mem_iff]
  case fixed_eq =>
    intro change member
    rw [sorted.countP_eq]
    exact fixed_eq_countP wellFormed offers found member
  case totalFixed_eq =>
    rw [sorted.length_eq]
    exact totalFixed_eq_length offers _
  case changed_eq_nil_iff =>
    dsimp only
    constructor
    · intro noChange
      rw [List.eq_nil_iff_forall_not_mem]
      intro violation member
      have changed := (exists_violation_iff offers violation.location.file).mp
        ⟨violation, sorted.mem_iff.mp member, rfl⟩
      rw [noChange] at changed
      cases changed
    · intro noViolation
      rw [List.eq_nil_iff_forall_not_mem]
      intro change member
      obtain ⟨violation, reported, -⟩ :=
        (exists_violation_iff offers change.file).mpr (List.mem_map_of_mem member)
      rw [← sorted.mem_iff, noViolation] at reported
      cases reported

/-- With rules of the catalogue, linting and a dry run fail in the same way or report the same. -/
theorem reports_match (analyzer : Analyzer) {config : Config} {workspace : Workspace}
    (wellFormed : workspace.tree.WellFormed)
    (offers : Catalogue.Offers config analyzer.rules) :
    (∃ error, analyzer.analyze workspace = .error error ∧
      (analyzer.format .dryRun workspace).2 = .error error) ∨
    ∃ linted formatted, analyzer.analyze workspace = .ok linted ∧
      (analyzer.format .dryRun workspace).2 = .ok formatted ∧ linted.Matches formatted := by
  rw [analyzer.analyze_eq wellFormed, analyzer.format_snd_eq wellFormed]
  cases read : analyzer.readable workspace with
  | error error => exact Or.inl ⟨error, rfl, rfl⟩
  | ok files =>
      have found := (analyzer.readable_eq_ok_iff.mp read).1
      exact Or.inr ⟨_, _, rfl, rfl, matches_of_discover wellFormed offers found⟩

theorem reports_match_sample :
    sampleWorkspace.tree.WellFormed ∧ Catalogue.Offers {} sampleAnalyzer.rules ∧
      ∃ linted, sampleAnalyzer.analyze sampleWorkspace = .ok linted ∧
        (sampleAnalyzer.format .dryRun sampleWorkspace).2 = .ok ⟨[⟨⟨["a"]⟩, 2⟩], 1⟩ ∧
        linted.Matches ⟨[⟨⟨["a"]⟩, 2⟩], 1⟩ := by
  have offers : Catalogue.Offers {} sampleAnalyzer.rules := ⟨_, rfl, Or.inl rfl⟩
  have succeeded : (sampleAnalyzer.format .dryRun sampleWorkspace).2 =
      .ok ⟨[⟨⟨["a"]⟩, 2⟩], 1⟩ := by cbv
  refine ⟨wellFormed_sampleWorkspace, offers, ?_⟩
  rcases sampleAnalyzer.reports_match wellFormed_sampleWorkspace offers with
    ⟨error, -, failed⟩ | ⟨linted, formatted, isLinted, isFormatted, sameStory⟩
  · rw [succeeded] at failed
    cases failed
  · rw [succeeded] at isFormatted
    obtain rfl := Except.ok.inj isFormatted
    exact ⟨linted, isLinted, succeeded, sameStory⟩

end Analyzer
end TidyLines
