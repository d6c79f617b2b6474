import TidyLines.CommandLine.Run
import TidyLines.Proofs.Analyzer.Building
import TidyLines.Proofs.Analyzer.Convergence

/-!
# The standard input

Checking and formatting a text from the standard input build their analyzers in the same way, from
one configuration and the rules of the catalogue (`CommandLine.exists_of_analyzerFor_ok`).  So what
one command reports and what the other one prints fit together (`CommandLine.InputAgreement`).
-/

namespace TidyLines

namespace CommandLine

variable {workspace : Workspace} {given : Option Path} {target : Target} {analyzer : Analyzer}

/-! ## The analyzer of a command -/

theorem offers_of_rulesFor {config : Config} {rules : List Rule}
    (made : rulesFor target config = .ok rules) : Catalogue.Offers config rules := by
  rw [rulesFor] at made
  cases listed : Catalogue.ofConfig config with
  | error error => simp [listed, Except.mapError, bind, Except.bind] at made
  | ok all =>
      simp only [listed, Except.mapError, bind, Except.bind] at made
      refine ⟨all, listed, ?_⟩
      split at made
      next => exact Or.inl (Except.ok.inj made).symm
      next names _ => exact Or.inr ⟨namesOf names, (Except.ok.inj made).symm⟩

/-- A command works with the configuration for its target and with rules of the catalogue. -/
theorem exists_of_analyzerFor_ok
    (made : (analyzerFor workspace given target).2 = .ok analyzer) :
    ∃ config, configFor workspace given target = .ok config ∧ analyzer.config = config ∧
      Catalogue.Offers config analyzer.rules := by
  rw [analyzerFor] at made
  cases loaded : configFor workspace given target with
  | error failure => simp [loaded, bind, Except.bind] at made
  | ok config =>
      cases chosen : rulesFor target config with
      | error failure => simp [loaded, chosen, bind, Except.bind] at made
      | ok rules =>
          simp only [loaded, chosen, bind, Except.bind, pure, Except.pure,
            mapError_eq_ok_iff, Plan.build_eq_ok_iff] at made
          obtain ⟨excluded, included, -, -, rfl⟩ := made
          exact ⟨config, rfl, rfl, offers_of_rulesFor chosen⟩

/-- The warnings of a command come after those of making its analyzer. -/
theorem withAnalyzer_of_made (made : (analyzerFor workspace given target).2 = .ok analyzer)
    (command : Analyzer → Except Outcome Outcome) :
    withAnalyzer workspace given target command =
      match command analyzer with
      | .error outcome | .ok outcome => { outcome with
          warnings := (analyzerFor workspace given target).1 ++ outcome.warnings } := by
  rw [withAnalyzer]
  generalize analyzerFor workspace given target = prepared at made ⊢
  obtain ⟨warnings, result⟩ := prepared
  obtain rfl : result = .ok analyzer := made
  rfl

/-! ## Texts on the standard input -/

/-- The report on a text from the standard input. -/
def inputReport (analyzer : Analyzer) (text : Text) : LintReport where
  violations := analyzer.lintText standardInputName text
  filesChecked := 1

theorem run_check_input (fromInput : target.standardInput = true)
    (made : (analyzerFor workspace given target).2 = .ok analyzer) (verbose : Bool)
    (format : OutputFormat) (text : Text) :
    ∃ warnings, run workspace (Text.encode text) ⟨.check target format, verbose, given⟩ = {
      output := Output.lint format (.text text) workspace (inputReport analyzer text)
      warnings
      success := !(inputReport analyzer text).hasViolationsAt analyzer.config.threshold
      tree := workspace.tree } := by
  have finished : check workspace (Text.encode text) analyzer target.standardInput format = .ok {
      output := Output.lint format (.text text) workspace (inputReport analyzer text)
      success := !(inputReport analyzer text).hasViolationsAt analyzer.config.threshold
      tree := workspace.tree } := by
    rw [check, fromInput, if_pos rfl, inputText, Text.decode?_encode]
    rfl
  refine ⟨(analyzerFor workspace given target).1 ++ [], ?_⟩
  simp only [run, withAnalyzer_of_made made, finished]

theorem run_format_input (fromInput : target.standardInput = true)
    (made : (analyzerFor workspace given target).2 = .ok analyzer) (verbose : Bool)
    (dryRun : Bool) (format : OutputFormat) (text : Text) :
    ∃ warnings, run workspace (Text.encode text) ⟨.format target dryRun format, verbose, given⟩ = {
      output := String.ofList (analyzer.formatText text)
      warnings
      success := !(dryRun && analyzer.formatText text != text)
      tree := workspace.tree } := by
  have finished : formatInput workspace (Text.encode text) analyzer dryRun = .ok {
      output := String.ofList (analyzer.formatText text)
      success := !(dryRun && analyzer.formatText text != text)
      tree := workspace.tree } := by
    rw [formatInput, inputText, Text.decode?_encode]
    rfl
  refine ⟨(analyzerFor workspace given target).1 ++ [], ?_⟩
  simp only [run, withAnalyzer_of_made made, fromInput, if_true, finished]

/-- Runs of the commands on a text from the standard input fit together: formatting it, doing so
without effect, checking it, and checking what formatting has printed. -/
structure InputAgreement (workspace : Workspace) (threshold : Severity) (analyzer : Analyzer)
    (shown : OutputFormat) (text : Text) (formatted dryRun checked rechecked : Outcome) :
    Prop where
  formatted_output : formatted.output = String.ofList (analyzer.formatText text)
  formatted_succeeds : formatted.exitCode = 0
  dryRun_output : dryRun.output = formatted.output
  dryRun_fails_iff : dryRun.exitCode = 1 ↔ dryRun.output ≠ String.ofList text
  changes_iff : dryRun.output ≠ String.ofList text ↔ (inputReport analyzer text).violations ≠ []
  checked_output :
    checked.output = Output.lint shown (.text text) workspace (inputReport analyzer text)
  reported_name : ∀ violation ∈ (inputReport analyzer text).violations,
    violation.location.file = standardInputName
  checked_fails_iff : checked.exitCode = 1 ↔
    ∃ violation ∈ (inputReport analyzer text).violations, threshold ≤ violation.severity
  rechecked_output : rechecked.output =
    Output.lint shown (.text (analyzer.formatText text)) workspace ⟨[], 1⟩
  rechecked_succeeds : rechecked.exitCode = 0
  nothing_fails : ∀ outcome ∈ [formatted, dryRun, checked, rechecked], outcome.failure = none
  nothing_written : ∀ outcome ∈ [formatted, dryRun, checked, rechecked],
    outcome.tree = workspace.tree

/-- Nothing is reported in a text that has been mended. -/
theorem lintText_formatText {config : Config}
    (offers : Catalogue.Offers config analyzer.rules) (name : Path) (text : Text) :
    analyzer.lintText name (analyzer.formatText text) = [] :=
  (Analyzer.fix_fst_eq_iff offers .empty name _).mp (Analyzer.fix_fix offers .empty text)

theorem exitCode_eq_one_iff (outcome : Outcome) :
    outcome.exitCode = 1 ↔ outcome.success = false := by
  cases succeeds : outcome.success <;> simp [Outcome.exitCode, succeeds]

/-- Checking and formatting agree on every text from the standard input, for all targets for which
an analyzer can be made. -/
theorem standardInput_agreement (fromInput : target.standardInput = true)
    (made : (analyzerFor workspace given target).2 = .ok analyzer) :
    ∃ config, configFor workspace given target = .ok config ∧
      ∀ (text : Text) (verbose : Bool) (summary shown : OutputFormat),
        let formatted := run workspace (Text.encode text)
          ⟨.format target false summary, verbose, given⟩
        InputAgreement workspace config.threshold analyzer shown text formatted
          (run workspace (Text.encode text) ⟨.format target true summary, verbose, given⟩)
          (run workspace (Text.encode text) ⟨.check target shown, verbose, given⟩)
          (run workspace formatted.output.toUTF8 ⟨.check target shown, verbose, given⟩) := by
  obtain ⟨config, loaded, rfl, offers⟩ := exists_of_analyzerFor_ok made
  refine ⟨analyzer.config, loaded, fun text verbose summary shown => ?_⟩
  obtain ⟨_, formatted⟩ := run_format_input fromInput made verbose false summary text
  obtain ⟨_, dryRun⟩ := run_format_input fromInput made verbose true summary text
  obtain ⟨_, checked⟩ := run_check_input fromInput made verbose shown text
  obtain ⟨_, rechecked⟩ := run_check_input fromInput made verbose shown (analyzer.formatText text)
  have leaves : analyzer.formatText text = text ↔ analyzer.lintText standardInputName text = [] :=
    Analyzer.fix_fst_eq_iff offers .empty standardInputName text
  have sameText : String.ofList (analyzer.formatText text) = String.ofList text ↔
      analyzer.formatText text = text := by
    rw [String.ofList_inj]
  have nothingLeft : inputReport analyzer (analyzer.formatText text) = ⟨[], 1⟩ := by
    rw [inputReport, lintText_formatText offers]
  rw [nothingLeft] at rechecked
  -- What formatting has printed is read again as the text that was mended.
  have printed : (String.ofList (analyzer.formatText text)).toUTF8 =
      Text.encode (analyzer.formatText text) := rfl
  simp only [formatted, dryRun, checked, printed, rechecked]
  constructor
  case formatted_output => rfl
  case formatted_succeeds => rfl
  case dryRun_output => rfl
  case dryRun_fails_iff => simp [exitCode_eq_one_iff, sameText]
  case changes_iff => rw [ne_eq, sameText, leaves]; rfl
  case checked_output => rfl
  case reported_name =>
    exact fun _ => analyzer.file_of_mem_lintText (Analyzer.reportsRelatively_of_offers offers)
  case checked_fails_iff =>
    simp [exitCode_eq_one_iff, LintReport.hasViolationsAt, inputReport]
  case rechecked_output => rfl
  case rechecked_succeeds => rfl
  case nothing_fails => simp
  case nothing_written => simp

/-- A project that is configured to fail on every remark. -/
def strictWorkspace : Workspace where
  tree := ⟨[(["trimlint.toml"], .file (Text.encode "fail_on = \"info\"".toList))]⟩
  directory := []

/-- The standard input, with a pattern that has no effect on it. -/
def inputTarget : Target where
  excluded := ["*.md"]
  standardInput := true

/-- The analyzer that the project gives to the standard input. -/
def inputAnalyzer : Analyzer where
  search := {
    root := ⟨["", "."]⟩
    excluded := [⟨['*', '.', 'm', 'd'], [.anyRun, .literal '.', .literal 'm', .literal 'd']⟩]
    included := []
    respectIgnoreFiles := true }
  rules := [TrailingSpaces.rule {}]
  config := { failOn := some .info }
  failOnUndecodable := false

theorem configFor_inputTarget :
    configFor strictWorkspace none inputTarget = .ok { failOn := some .info } := by
  cbv

theorem analyzerFor_inputTarget :
    (analyzerFor strictWorkspace none inputTarget).2 = .ok inputAnalyzer := by
  rw [analyzerFor, configFor_inputTarget]
  cbv

theorem standardInput_agreement_sample :
    inputTarget.standardInput = true ∧
      ∃ analyzer, (analyzerFor strictWorkspace none inputTarget).2 = .ok analyzer ∧
        analyzer.lintText standardInputName [' '] ≠ [] ∧
        ∃ config, configFor strictWorkspace none inputTarget = .ok config ∧
          config.threshold = .info ∧
          let formatted := run strictWorkspace (Text.encode [' '])
            ⟨.format inputTarget false .text, false, none⟩
          InputAgreement strictWorkspace config.threshold analyzer .compact [' '] formatted
            (run strictWorkspace (Text.encode [' ']) ⟨.format inputTarget true .text, false, none⟩)
            (run strictWorkspace (Text.encode [' ']) ⟨.check inputTarget .compact, false, none⟩)
            (run strictWorkspace formatted.output.toUTF8
              ⟨.check inputTarget .compact, false, none⟩) := by
  obtain ⟨config, alsoLoaded, agreement⟩ := standardInput_agreement rfl analyzerFor_inputTarget
  rw [configFor_inputTarget] at alsoLoaded
  obtain rfl := Except.ok.inj alsoLoaded
  exact ⟨rfl, _, analyzerFor_inputTarget, by decide, _, configFor_inputTarget, rfl,
    agreement [' '] false .text .compact⟩

end CommandLine
end TidyLines
