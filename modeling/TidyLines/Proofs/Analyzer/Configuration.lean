import TidyLines.NoBang
import TidyLines.Proofs.Analyzer.Building
import TidyLines.Proofs.Analyzer.Linting

/-!
# What the configuration of rules decides

The rules of a configuration turn rules off and replace severities.  Which files are found, what is
mended and in which order violations are reported depends on them only through the rules that are on
(`Analyzer.SameScope`).  Severities come in at the very end: a report is made of the violations as
their rules report them (`Analyzer.sortedFindings`), each of which is graded by itself
(`Config.grade`).
-/

namespace TidyLines

/-- Two results are related, or they are the same failure. -/
inductive SameOutcome {Error Value Other : Type} (Related : Value → Other → Prop) :
    Except Error Value → Except Error Other → Prop
  | ok {value : Value} {other : Other} (related : Related value other) :
    SameOutcome Related (.ok value) (.ok other)
  | error (error : Error) : SameOutcome Related (.error error) (.error error)

theorem SameOutcome.bind {Error Value Report Other : Type} {Related : Report → Other → Prop}
    (result : Except Error Value) {next : Value → Except Error Report}
    {other : Value → Except Error Other}
    (related : ∀ value, SameOutcome Related (next value) (other value)) :
    SameOutcome Related (result >>= next) (result >>= other) := by
  cases result with
  | ok value => exact related value
  | error error => exact .error error

theorem SameOutcome.map {Error Value Report Other : Type} {Related : Report → Other → Prop}
    (result : Except Error Value) {report : Value → Report} {other : Value → Other}
    (related : ∀ value, Related (report value) (other value)) :
    SameOutcome Related (result.map report) (result.map other) := by
  cases result with
  | ok value => exact .ok (related value)
  | error error => exact .error error

/-! ## Violations and their severities -/

/-- Whether two violations differ in their severities at most. -/
def Violation.SameUpToSeverity (first second : Violation) : Prop :=
  { first with severity := second.severity } = second

/-- Two reports of the same violations in the same order, but for the severities. -/
structure LintReport.SameUpToSeverity (first second : LintReport) : Prop where
  filesChecked_eq : first.filesChecked = second.filesChecked
  violations : List.Forall₂ Violation.SameUpToSeverity first.violations second.violations

namespace Config

/-- Two configurations that select the same files and say the same about all rules but those of one
name. -/
structure AgreeApartFrom (name : String) (first second : Config) : Prop where
  selection_eq : first.selection = second.selection
  rule?_eq : ∀ other, other ≠ name → first.rule? other = second.rule? other

/-- Two configurations that select the same files and turn the same rules off.  They may have other
severities for rules and another one at which a run fails. -/
structure SameUpToSeverity (first second : Config) : Prop where
  selection_eq : first.selection = second.selection
  isEnabled_eq : ∀ name, first.isEnabled name = second.isEnabled name

/-- A violation is reported with the severity that is configured for its rule, if there is one, and
otherwise as the rule has it. -/
structure Grades (config : Config) (finding : Rule × Violation) (reported : Violation) : Prop where
  replaced : ∀ severity, config.severity? finding.1.name = some severity →
    reported = { finding.2 with severity }
  kept : config.severity? finding.1.name = none → reported = finding.2

/-- The violation that is reported for one of a rule. -/
def grade (config : Config) (finding : Rule × Violation) : Violation :=
  match config.severity? finding.1.name with
  | none => finding.2
  | some severity => { finding.2 with severity }

@[simp]
theorem location_grade (config : Config) (finding : Rule × Violation) :
    (config.grade finding).location = finding.2.location := by
  rw [grade]
  split <;> rfl

theorem grades_grade (config : Config) (finding : Rule × Violation) :
    config.Grades finding (config.grade finding) := by
  constructor
  case replaced =>
    intro severity configured
    rw [grade, configured]
  case kept =>
    intro notConfigured
    rw [grade, notConfigured]

theorem sameUpToSeverity_grade (first second : Config) (finding : Rule × Violation) :
    (first.grade finding).SameUpToSeverity (second.grade finding) := by
  rw [grade, grade]
  cases first.severity? finding.1.name <;> cases second.severity? finding.1.name <;> rfl

end Config

namespace Analyzer

section Findings

variable (analyzer : Analyzer)

/-- The violations that rules which are on report in a source, each with its rule. -/
def findings (source : Source) : List (Rule × Violation) :=
  analyzer.enabledRules.flatMap fun rule =>
    (rule.check source).map fun violation => (rule, violation)

/-- The findings in the texts of files, in the order of a report. -/
def sortedFindings (workspace : Workspace) (files : List FoundFile) : List (Rule × Violation) :=
  ((analyzer.readTexts workspace.directory workspace.tree files).flatMap fun entry =>
      analyzer.findings (sourceOf (analyzer.baseDirectory workspace) entry.1 entry.2)).mergeSort
    fun first second => inOrder first.2 second.2

theorem lint_eq_map_grade (source : Source) :
    analyzer.lint source = (analyzer.findings source).map analyzer.config.grade := by
  rw [lint, findings, List.map_flatMap]
  apply List.flatMap_congr
  intro rule _
  rw [List.map_map, withSeverity]
  cases configured : analyzer.config.severity? rule.name with
  | none => simp [Config.grade, configured, Function.comp_def]
  | some severity => simp [Config.grade, configured, Function.comp_def]

/-- Severities have no part in the order of a report, so that they can be replaced after sorting. -/
theorem mergeSort_flatMap_lint (workspace : Workspace) (files : List FoundFile) :
    ((analyzer.readTexts workspace.directory workspace.tree files).flatMap fun entry =>
        analyzer.lint (sourceOf (analyzer.baseDirectory workspace) entry.1 entry.2)).mergeSort
          inOrder =
      (analyzer.sortedFindings workspace files).map analyzer.config.grade := by
  have sameOrder : ∀ first second : Rule × Violation,
      inOrder first.2 second.2 =
        inOrder (analyzer.config.grade first) (analyzer.config.grade second) := by
    intro first second
    simp only [inOrder, compareLex, compareOn, Config.location_grade]
  rw [sortedFindings, List.map_mergeSort fun first _ second _ => sameOrder first second,
    List.map_flatMap]
  simp only [lint_eq_map_grade]

theorem analyze_eq_map_grade (workspace : Workspace) :
    analyzer.analyze workspace = (analyzer.readable workspace).map fun files => {
      violations := (analyzer.sortedFindings workspace files).map analyzer.config.grade
      filesChecked :=
        (analyzer.readTexts workspace.directory workspace.tree files).length } := by
  rw [analyze, readable]
  cases analyzer.discover workspace with
  | error error => rfl
  | ok files =>
      simp only [bind, Except.bind, lintFiles_eq_readTexts, ← mergeSort_flatMap_lint]
      cases analyzer.refused? workspace.directory workspace.tree files <;> rfl

end Findings

/-! ## Analyzers of the same scope -/

/-- Two analyzers that look for the same files and have the same rules on. -/
structure SameScope (first second : Analyzer) : Prop where
  search_eq : first.search = second.search
  failOnUndecodable_eq : first.failOnUndecodable = second.failOnUndecodable
  enabledRules_eq : first.enabledRules = second.enabledRules

/-- Two analyzers that answer all calls alike. -/
structure ActsLike (first second : Analyzer) : Prop where
  analyze_eq : ∀ workspace, first.analyze workspace = second.analyze workspace
  format_eq : ∀ mode workspace, first.format mode workspace = second.format mode workspace
  lintText_eq : ∀ name text, first.lintText name text = second.lintText name text
  formatText_eq : ∀ text, first.formatText text = second.formatText text

/-- Two analyzers that mend alike and report alike, but for the severities. -/
structure ActsLikeUpToSeverity (first second : Analyzer) : Prop where
  analyze_alike : ∀ workspace,
    SameOutcome LintReport.SameUpToSeverity (first.analyze workspace) (second.analyze workspace)
  format_eq : ∀ mode workspace, first.format mode workspace = second.format mode workspace
  lintText_alike : ∀ name text,
    List.Forall₂ Violation.SameUpToSeverity (first.lintText name text) (second.lintText name text)
  formatText_eq : ∀ text, first.formatText text = second.formatText text

/-- An analyzer that reports what its rules report, with severities from a configuration. -/
structure GradesBy (analyzer : Analyzer) (config : Config) : Prop where
  lintText_grades : ∀ name text,
    List.Forall₂ config.Grades (analyzer.findings (.named name text)) (analyzer.lintText name text)
  analyze_grades : ∀ workspace report, analyzer.analyze workspace = .ok report →
    ∃ files, analyzer.discover workspace = .ok files ∧
      List.Forall₂ config.Grades (analyzer.sortedFindings workspace files) report.violations

namespace SameScope

variable {first second : Analyzer} (same : first.SameScope second)

include same

theorem decode_eq (path : Path) (bytes : ByteArray) :
    first.decode path bytes = second.decode path bytes := by
  rw [decode, decode, same.failOnUndecodable_eq]

theorem discover_eq (workspace : Workspace) :
    first.discover workspace = second.discover workspace := by
  rw [discover, discover, same.search_eq]

theorem baseDirectory_eq (workspace : Workspace) :
    first.baseDirectory workspace = second.baseDirectory workspace := by
  rw [baseDirectory, baseDirectory, root, root, same.search_eq]

theorem readFile_eq (directory : Address) (tree : FileTree) (path : Path) :
    first.readFile directory tree path = second.readFile directory tree path := by
  simp only [readFile, same.decode_eq]

theorem readTexts_eq (directory : Address) (tree : FileTree) (files : List FoundFile) :
    first.readTexts directory tree files = second.readTexts directory tree files := by
  simp only [readTexts, same.readFile_eq]

theorem refusal?_eq (directory : Address) (tree : FileTree) :
    first.refusal? directory tree = second.refusal? directory tree := by
  funext file
  rw [refusal?, refusal?, same.readFile_eq]

theorem readable_eq (workspace : Workspace) :
    first.readable workspace = second.readable workspace := by
  simp only [readable, refused?, same.discover_eq, same.refusal?_eq]

theorem fix_eq (path : Path) (text : Text) : first.fix path text = second.fix path text := by
  rw [fix, fix, same.enabledRules_eq]

theorem findings_eq (source : Source) : first.findings source = second.findings source := by
  rw [findings, findings, same.enabledRules_eq]

theorem sortedFindings_eq (workspace : Workspace) (files : List FoundFile) :
    first.sortedFindings workspace files = second.sortedFindings workspace files := by
  simp only [sortedFindings, same.findings_eq, same.baseDirectory_eq, same.readTexts_eq]

theorem formatFile_eq (mode : Mode) (directory : Address) (base : Path) (file : FoundFile)
    (text : Text) (tree : FileTree) :
    first.formatFile mode directory base file text tree =
      second.formatFile mode directory base file text tree := by
  rw [formatFile, formatFile, same.fix_eq]

theorem formatNext_eq (mode : Mode) (directory : Address) (base : Path) (file : FoundFile)
    (report : FormatReport) (tree : FileTree) :
    first.formatNext mode directory base file report tree =
      second.formatNext mode directory base file report tree := by
  simp only [formatNext, same.readFile_eq, same.formatFile_eq]

theorem formatFiles_eq (mode : Mode) (directory : Address) (base : Path) (report : FormatReport)
    (files : List FoundFile) (tree : FileTree) :
    first.formatFiles mode directory base report files tree =
      second.formatFiles mode directory base report files tree := by
  induction files generalizing report tree with
  | nil => rfl
  | cons file others ih => simp only [formatFiles, same.formatNext_eq, ih]

theorem format_eq (mode : Mode) (workspace : Workspace) :
    first.format mode workspace = second.format mode workspace := by
  simp only [format, same.discover_eq, same.baseDirectory_eq, same.formatFiles_eq]

theorem formatText_eq (text : Text) : first.formatText text = second.formatText text := by
  rw [formatText, formatText, same.fix_eq]

/-- What is reported differs in severities at most. -/
theorem actsLikeUpToSeverity : first.ActsLikeUpToSeverity second := by
  have alike : ∀ findings : List (Rule × Violation),
      List.Forall₂ Violation.SameUpToSeverity (findings.map first.config.grade)
        (findings.map second.config.grade) := by
    intro findings
    rw [List.forall₂_map_left_iff, List.forall₂_map_right_iff, List.forall₂_same]
    exact fun finding _ => Config.sameUpToSeverity_grade _ _ finding
  constructor
  case analyze_alike =>
    intro workspace
    rw [analyze_eq_map_grade, analyze_eq_map_grade, same.readable_eq]
    refine SameOutcome.map _ fun files => ⟨?_, ?_⟩
    · dsimp only
      rw [same.readTexts_eq]
    · rw [same.sortedFindings_eq]
      exact alike _
  case format_eq => exact same.format_eq
  case lintText_alike =>
    intro name text
    rw [lintText, lintText, lint_eq_map_grade, lint_eq_map_grade, same.findings_eq]
    exact alike _
  case formatText_eq => exact same.formatText_eq

/-- Nothing differs if the rules that are on have the same severities configured. -/
theorem actsLike (severities : ∀ rule ∈ second.enabledRules,
    first.config.severity? rule.name = second.config.severity? rule.name) :
    first.ActsLike second := by
  have sameGrade : ∀ source, ∀ finding ∈ second.findings source,
      first.config.grade finding = second.config.grade finding := by
    intro source finding member
    obtain ⟨rule, enabled, reported⟩ := List.mem_flatMap.mp member
    obtain ⟨violation, -, rfl⟩ := List.mem_map.mp reported
    rw [Config.grade, Config.grade, severities rule enabled]
  constructor
  case analyze_eq =>
    intro workspace
    rw [analyze_eq_map_grade, analyze_eq_map_grade, same.readable_eq]
    congr 1
    funext files
    rw [same.sortedFindings_eq, same.readTexts_eq]
    congr 1
    apply List.map_congr_left
    intro finding member
    obtain ⟨entry, -, found⟩ := List.mem_flatMap.mp (List.mem_mergeSort.mp member)
    exact sameGrade _ finding found
  case format_eq => exact same.format_eq
  case lintText_eq =>
    intro name text
    rw [lintText, lintText, lint_eq_map_grade, lint_eq_map_grade, same.findings_eq]
    exact List.map_congr_left (sameGrade _)
  case formatText_eq => exact same.formatText_eq

end SameScope

theorem gradesBy_config (analyzer : Analyzer) : analyzer.GradesBy analyzer.config := by
  have grades : ∀ findings : List (Rule × Violation),
      List.Forall₂ analyzer.config.Grades findings (findings.map analyzer.config.grade) := by
    intro findings
    rw [List.forall₂_map_right_iff, List.forall₂_same]
    exact fun finding _ => analyzer.config.grades_grade finding
  constructor
  case lintText_grades =>
    intro name text
    rw [lintText, lint_eq_map_grade]
    exact grades _
  case analyze_grades =>
    intro workspace report succeeded
    rw [analyze_eq_map_grade] at succeeded
    cases read : analyzer.readable workspace with
    | error error => simp [read, Except.map] at succeeded
    | ok files =>
        rw [read] at succeeded
        refine ⟨files, (analyzer.readable_eq_ok_iff.mp read).1, ?_⟩
        rw [← Except.ok.inj succeeded]
        exact grades _

end Analyzer

/-! ## Plans with a configuration -/

namespace Plan

/-- A plan with another configuration. -/
def configured (plan : Plan) (config : Config) : Plan := { plan with config := some config }

/-- A plan without the rules of a name. -/
def withoutRule (plan : Plan) (name : String) : Plan :=
  { plan with rules := plan.rules.filter fun rule => rule.name ≠ name }

/-- Two plans that differ in rules and configurations are built alike, if they select the same files
and have the same rules on. -/
theorem sameOutcome_build {plan : Plan} {rules : List Rule} {first second : Config}
    {Related : Analyzer → Analyzer → Prop} (directory : Path)
    (selection : first.selection = second.selection)
    (enabled : plan.rules.filter (fun rule => first.isEnabled rule.name) =
      rules.filter fun rule => second.isEnabled rule.name)
    (related : ∀ one other : Analyzer, one.config = first → other.config = second →
      one.SameScope other → Related one other) :
    SameOutcome Related ((plan.configured first).build directory)
      (({ plan with rules }.configured second).build directory) := by
  have sameExcluded : ({ plan with rules }.configured second).allExcluded =
      (plan.configured first).allExcluded := by
    rw [allExcluded, allExcluded, configured, configured, Option.map_some, Option.map_some,
      selection]
  have sameIncluded : ({ plan with rules }.configured second).allIncluded =
      (plan.configured first).allIncluded := by
    rw [allIncluded, allIncluded, configured, configured, Option.map_some, Option.map_some,
      selection]
  have sameRoot : ({ plan with rules }.configured second).givenRoot =
      (plan.configured first).givenRoot := by
    rw [givenRoot, givenRoot, configured, configured, Option.map_some, Option.map_some, selection]
  rw [build, build, sameExcluded, sameIncluded, sameRoot]
  refine SameOutcome.bind _ fun excluded => SameOutcome.bind _ fun included =>
    .ok (related _ _ rfl rfl ⟨?_, rfl, enabled⟩)
  simp only [configured, Option.getD_some, selection]

end Plan

namespace Analyzer

/-- A rule that is turned off is as good as one that is not there. -/
theorem sameOutcome_withoutRule (plan : Plan) {name : String} {config rest : Config}
    (directory : Path) (off : (config.rule? name).bind RuleConfig.enabled = some false)
    (agree : config.AgreeApartFrom name rest) :
    SameOutcome ActsLike ((plan.configured config).build directory)
      (((plan.withoutRule name).configured rest).build directory) := by
  have enabledEq : ∀ rule : Rule, config.isEnabled rule.name =
      (rest.isEnabled rule.name && decide (rule.name ≠ name)) := by
    intro rule
    by_cases named : rule.name = name
    · simp [named, Config.isEnabled, off]
    · simp [named, Config.isEnabled, agree.rule?_eq rule.name named]
  refine Plan.sameOutcome_build directory agree.selection_eq ?_ ?_
  · rw [List.filter_filter]
    exact List.filter_congr fun rule _ => enabledEq rule
  · rintro one other rfl rfl scope
    refine scope.actsLike ?_
    intro rule enabled
    -- The rule is on for the first analyzer too, so that it has another name.
    rw [← scope.enabledRules_eq] at enabled
    have isOn := (List.mem_filter.mp enabled).2
    rw [enabledEq, Bool.and_eq_true, decide_eq_true_eq] at isOn
    rw [Config.severity?, Config.severity?, agree.rule?_eq rule.name isOn.2]

/-- The configuration of a rule acts on this rule and on nothing else.  Turning it off is taking the
rules of its name away.  Severities, those of rules and the one at which a run fails, have no part
in what is mended or reported, nor in the order of a report: they only show in the severities of the
violations.  There they replace those of the violations that come from rules with a severity
configured for them, and all other violations keep what their rules say. -/
theorem rule_configuration_confined (plan : Plan) (config : Config) (directory : Path) :
    (∀ name rest, (config.rule? name).bind RuleConfig.enabled = some false →
        config.AgreeApartFrom name rest →
        SameOutcome ActsLike ((plan.configured config).build directory)
          (((plan.withoutRule name).configured rest).build directory)) ∧
      (∀ other, config.SameUpToSeverity other →
        SameOutcome ActsLikeUpToSeverity ((plan.configured config).build directory)
          ((plan.configured other).build directory)) ∧
      ∀ analyzer, (plan.configured config).build directory = .ok analyzer →
        analyzer.GradesBy config := by
  refine ⟨?_, ?_, ?_⟩
  · intro name rest off agree
    exact sameOutcome_withoutRule plan directory off agree
  · intro other same
    refine Plan.sameOutcome_build directory same.selection_eq ?_ ?_
    · exact List.filter_congr fun rule _ => same.isEnabled_eq rule.name
    · exact fun _ _ _ _ scope => scope.actsLikeUpToSeverity
  · intro analyzer built
    obtain ⟨excluded, included, -, -, rfl⟩ := Plan.build_eq_ok_iff.mp built
    exact gradesBy_config _

/-- A plan with two rules. -/
def twoRulePlan : Plan where
  rules := [NoBang.rule, TrailingSpaces.rule {}]
  excluded := ["x"]

/-- A configuration that turns one of the rules off and gives the other one a severity. -/
def gradingConfig (severity : Severity) : Config where
  rules := [(NoBang.name, { enabled := some false }), (TrailingSpaces.name, { severity })]

theorem rule_configuration_confined_sample : ∃ analyzer,
    (twoRulePlan.configured (gradingConfig .info)).build .empty = .ok analyzer ∧
      (analyzer.lintText .empty ['!', ' ', '\n', '!']).map Violation.severity = [.info] ∧
      analyzer.GradesBy (gradingConfig .info) ∧
      SameOutcome ActsLike (.ok analyzer)
        (((twoRulePlan.withoutRule NoBang.name).configured
          { rules := [(TrailingSpaces.name, { severity := some .info })] }).build .empty) ∧
      SameOutcome ActsLikeUpToSeverity (.ok analyzer)
        ((twoRulePlan.configured (gradingConfig .warning)).build .empty) := by
  have built : (twoRulePlan.configured (gradingConfig .info)).build .empty =
      .ok ((twoRulePlan.configured (gradingConfig .info)).analyzerWith .empty
        [⟨['x'], [.literal 'x']⟩] []) :=
    Plan.build_eq_ok_iff.mpr ⟨_, _, by cbv, by cbv, rfl⟩
  have confined := rule_configuration_confined twoRulePlan (gradingConfig .info) .empty
  rw [built] at confined
  obtain ⟨removal, regrading, grading⟩ := confined
  refine ⟨_, built, by cbv, grading _ rfl, removal NoBang.name _ rfl ⟨rfl, ?_⟩,
    regrading (gradingConfig .warning) ⟨rfl, ?_⟩⟩
  · intro other differs
    rw [Config.rule?, gradingConfig, List.lookup_cons, beq_eq_false_iff_ne.mpr differs]
    rfl
  · intro name
    simp only [Config.isEnabled, Config.rule?, gradingConfig, List.lookup_cons]
    cases name == NoBang.name <;> cases name == TrailingSpaces.name <;> rfl

end Analyzer
end TidyLines
