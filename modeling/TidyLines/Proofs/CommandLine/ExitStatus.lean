import TidyLines.Proofs.CommandLine.StandardInput
import TidyLines.Proofs.Report.Totals
import TidyLines.Proofs.Text.Decimal

/-!
# How a check ends

A check examines files or the standard input (`CommandLine.examine`) and then prints a report and
ends with a code.  The code depends on the numbers of the report and on the severity that fails a
run, and on nothing else (`CommandLine.Examination.exitCode_outcome`).  The numbers can be read off
the summary that is printed (`CommandLine.Output.eq_of_summary_eq`).
-/

namespace TidyLines

/-- An analyzer whose runs fail at another severity. -/
def Analyzer.failingAt (analyzer : Analyzer) (severity : Severity) : Analyzer :=
  { analyzer with config := { analyzer.config with failOn := some severity } }

@[simp]
theorem Analyzer.threshold_failingAt (analyzer : Analyzer) (severity : Severity) :
    (analyzer.failingAt severity).config.threshold = severity := rfl

theorem Analyzer.analyze_failingAt (analyzer : Analyzer) (severity : Severity)
    (workspace : Workspace) :
    (analyzer.failingAt severity).analyze workspace = analyzer.analyze workspace := by
  simp only [analyze, lintFiles_eq_readTexts]
  rfl

theorem Analyzer.passedOver_failingAt (analyzer : Analyzer) (severity : Severity)
    (workspace : Workspace) (files : List FoundFile) :
    (analyzer.failingAt severity).passedOver workspace files =
      analyzer.passedOver workspace files := by
  induction files with
  | nil => rfl
  | cons file others ih =>
      rw [passedOver, passedOver, ih]
      rfl

namespace CommandLine

variable {workspace : Workspace} {input : ByteArray} {given : Option Path} {target : Target}
  {analyzer : Analyzer} {standardInput : Bool} {format : OutputFormat}

/-! ## From the report to the outcome -/

/-- What a check finds out. -/
structure Examination where
  report : LintReport
  access : SourceAccess
  warnings : List Warning

/-- Finds violations in files or in the standard input. -/
def examine (workspace : Workspace) (input : ByteArray) (analyzer : Analyzer)
    (standardInput : Bool) : Except Failure Examination :=
  if standardInput then do
    let text ← inputText input
    return ⟨inputReport analyzer text, .text text, []⟩
  else do
    let report ← (analyzer.analyze workspace).mapError Failure.analysis
    return ⟨report, .below (analyzer.baseDirectory workspace), skippedFiles analyzer workspace⟩

/-- The outcome of a check that fails at a severity. -/
def Examination.outcome (examination : Examination) (format : OutputFormat)
    (workspace : Workspace) (threshold : Severity) : Outcome where
  output := Output.lint format examination.access workspace examination.report
  warnings := examination.warnings
  success := !examination.report.hasViolationsAt threshold
  tree := workspace.tree

/-- A check prints what it finds out, or fails and leaves the files alone. -/
theorem check_eq : check workspace input analyzer standardInput format =
    match examine workspace input analyzer standardInput with
    | .error failure => .error (.failed workspace failure
        (if standardInput then [] else skippedFiles analyzer workspace))
    | .ok examination =>
        .ok (examination.outcome format workspace analyzer.config.threshold) := by
  rw [check, examine]
  cases standardInput with
  | true =>
      simp only [if_true]
      cases inputText input <;> rfl
  | false =>
      simp only [Bool.false_eq_true, if_false]
      cases analyzer.analyze workspace <;> rfl

theorem skippedFiles_failingAt (severity : Severity) :
    skippedFiles (analyzer.failingAt severity) workspace = skippedFiles analyzer workspace := by
  simp only [skippedFiles, analyzer.passedOver_failingAt]
  rfl

theorem examine_failingAt (severity : Severity) :
    examine workspace input (analyzer.failingAt severity) standardInput =
      examine workspace input analyzer standardInput := by
  rw [examine, examine, analyzer.analyze_failingAt, skippedFiles_failingAt]
  rfl

/-- The code is decided by the numbers of the report and the threshold. -/
theorem Examination.exitCode_outcome (examination : Examination) (format : OutputFormat)
    (workspace : Workspace) (threshold : Severity) :
    (examination.outcome format workspace threshold).exitCode =
      if 0 < examination.report.counts.atLeast threshold then 1 else 0 := by
  rw [Outcome.exitCode, Examination.outcome]
  by_cases fails : examination.report.hasViolationsAt threshold = true
  · rw [if_pos ((LintReport.hasViolationsAt_iff ..).mp fails), fails]
    rfl
  · rw [if_neg (mt (LintReport.hasViolationsAt_iff ..).mpr fails), Bool.eq_false_iff.mpr fails]
    rfl

/-- A check that fails at a severity fails in the same way at each lower one. -/
theorem check_failingAt_of_le {lower upper : Severity} (le : lower ≤ upper) {outcome : Outcome}
    (checked : check workspace input (analyzer.failingAt upper) standardInput format = .ok outcome)
    (fails : outcome.exitCode = 1) :
    check workspace input (analyzer.failingAt lower) standardInput format = .ok outcome := by
  -- Both checks examine the same, so that one report is held against both severities.
  rw [check_eq, examine_failingAt, analyzer.threshold_failingAt] at checked ⊢
  cases found : examine workspace input analyzer standardInput with
  | error failure =>
      rw [found] at checked
      cases checked
  | ok examination =>
      rw [found] at checked
      obtain rfl := Except.ok.inj checked
      have failsAtUpper : examination.report.hasViolationsAt upper = true := by
        simpa [Examination.outcome] using (exitCode_eq_one_iff _).mp fails
      have failsAtLower := examination.report.inStep.lower lower upper le failsAtUpper
      simp only [Examination.outcome, failsAtLower, failsAtUpper]

/-- A check that does not fail early prints what it has found out and ends as its analyzer is
configured. -/
theorem exists_of_run_check {verbose : Bool}
    (finishes : (run workspace input ⟨.check target format, verbose, given⟩).failure = none) :
    ∃ (analyzer : Analyzer) (examination : Examination) (warnings : List Warning),
      (analyzerFor workspace given target).2 = .ok analyzer ∧
        examine workspace input analyzer target.standardInput = .ok examination ∧
        run workspace input ⟨.check target format, verbose, given⟩ =
          { examination.outcome format workspace analyzer.config.threshold with warnings } := by
  cases made : (analyzerFor workspace given target).2 with
  | error failure =>
      simp [run, withAnalyzer, made, Except.mapError, Except.bind, Outcome.failed] at finishes
  | ok analyzer =>
      cases found : examine workspace input analyzer target.standardInput with
      | error failure =>
          simp [run, withAnalyzer_of_made made, check_eq, found, Outcome.failed] at finishes
      | ok examination =>
          refine ⟨analyzer, examination,
            (analyzerFor workspace given target).1 ++ examination.warnings, rfl, found, ?_⟩
          simp only [run, withAnalyzer_of_made made, check_eq, found]
          rfl

/-! ## The summary -/

namespace Output

theorem printLines_concat (lines : List String) (last : String) :
    printLines (lines ++ [last]) = printLines lines ++ last ++ "\n" := by
  simp [printLines, String.append_assoc]

theorem toList_summary (report : LintReport) : (summary report).toList =
    (Colour.ofCounts report.counts).start.toList ++ ("Found ".toList ++
      (Text.ofNat report.counts.errors ++ ' ' :: ("error(s), ".toList ++
        (Text.ofNat report.counts.warnings ++ ' ' :: ("warning(s), ".toList ++
          (Text.ofNat report.counts.infos ++ ' ' :: ("info(s) in ".toList ++
            (Text.ofNat report.filesChecked ++ ' ' ::
              ("file(s)" ++ Colour.reset).toList)))))))) := by
  simp [summary, Colour.paint, Text.ofNat]

theorem length_start (colour : Colour) : colour.start.toList.length = 5 := by
  cases colour <;> decide

/-- The numbers can be read off the summary. -/
theorem eq_of_summary_eq {first second : LintReport} (same : summary first = summary second) :
    first.counts = second.counts ∧ first.filesChecked = second.filesChecked := by
  rw [← String.toList_inj, toList_summary, toList_summary] at same
  -- The colour is cut off by its length, as it may differ; behind it each number ends at a blank.
  obtain ⟨-, found⟩ := List.append_inj same (by rw [length_start, length_start])
  obtain ⟨errors, same⟩ := Text.eq_of_ofNat_append_blank_eq (List.append_cancel_left found)
  obtain ⟨warnings, same⟩ := Text.eq_of_ofNat_append_blank_eq (List.append_cancel_left same)
  obtain ⟨infos, same⟩ := Text.eq_of_ofNat_append_blank_eq (List.append_cancel_left same)
  obtain ⟨files, -⟩ := Text.eq_of_ofNat_append_blank_eq (List.append_cancel_left same)
  exact ⟨SeverityCounts.ext errors warnings infos, files⟩

end Output

/-! ## Numbers and verdicts -/

/-- A check has printed the report on its input, and its code says by the numbers of the report
whether some violation is at least as serious as the configured threshold. -/
structure EndsByNumbers (workspace : Workspace) (input : ByteArray) (analyzer : Analyzer)
    (standardInput : Bool) (format : OutputFormat) (outcome : Outcome) (report : LintReport) :
    Prop where
  report_of_text : standardInput = true →
    ∃ text, Text.decode? input = some text ∧ report = inputReport analyzer text
  report_of_files : standardInput = false → analyzer.analyze workspace = .ok report
  output_eq : ∃ access, outcome.output = Output.lint format access workspace report
  summary_printed : format = .text ∨ format = .pretty →
    ∃ front, outcome.output = front ++ Output.summary report ++ "\n"
  exitCode_eq : outcome.exitCode =
    if 0 < report.counts.atLeast analyzer.config.threshold then 1 else 0

theorem endsByNumbers {examination : Examination}
    (examined : examine workspace input analyzer standardInput = .ok examination)
    (warnings : List Warning) :
    EndsByNumbers workspace input analyzer standardInput format
      { examination.outcome format workspace analyzer.config.threshold with warnings }
      examination.report where
  report_of_text := by
    rintro rfl
    obtain ⟨text, read, made⟩ := bind_eq_ok_iff.mp examined
    obtain rfl := Except.ok.inj made
    rw [inputText] at read
    split at read
    next decoded =>
      obtain rfl := Except.ok.inj read
      exact ⟨_, decoded, rfl⟩
    next => cases read
  report_of_files := by
    rintro rfl
    obtain ⟨report, analyzed, made⟩ := bind_eq_ok_iff.mp examined
    obtain rfl := Except.ok.inj made
    exact mapError_eq_ok_iff.mp analyzed
  output_eq := ⟨examination.access, rfl⟩
  summary_printed := by
    rintro (rfl | rfl)
    · exact ⟨_, Output.printLines_concat _ _⟩
    · exact ⟨_, Output.printLines_concat _ _⟩
  exitCode_eq := examination.exitCode_outcome format workspace analyzer.config.threshold

/-- The numbers of a report are in step with its tests however it is put together, and with the
configured threshold they decide how a check ends. -/
theorem numbers_decide_verdicts :
    (∀ report : LintReport, report.InStep) ∧
    (∀ first second : LintReport, first.AddsUp second) ∧
    (∀ assembly other : Assembly,
      (assembly.parts = other.parts → assembly.report = other.report) ∧
      (assembly.parts.Perm other.parts → assembly.report.SameTotals other.report)) ∧
    (∀ first second, Output.summary first = Output.summary second → first.SameTotals second) ∧
    (∀ workspace input target format verbose given,
      let outcome := run workspace input ⟨.check target format, verbose, given⟩
      outcome.failure = none → ∃ analyzer report,
        (analyzerFor workspace given target).2 = .ok analyzer ∧
          configFor workspace given target = .ok analyzer.config ∧
          EndsByNumbers workspace input analyzer target.standardInput format outcome report) ∧
    ∀ workspace input (analyzer : Analyzer) standardInput format lower upper outcome,
      lower ≤ upper →
      check workspace input (analyzer.failingAt upper) standardInput format = .ok outcome →
      outcome.exitCode = 1 →
        check workspace input (analyzer.failingAt lower) standardInput format = .ok outcome := by
  refine ⟨LintReport.inStep, LintReport.addsUp, ?_, ?_, ?_, ?_⟩
  · intro assembly other
    refine ⟨?_, Assembly.sameTotals_of_perm⟩
    intro sameParts
    rw [assembly.report_eq_concat, other.report_eq_concat, sameParts]
  · intro first second same
    obtain ⟨counts, files⟩ := Output.eq_of_summary_eq same
    exact LintReport.sameTotals_of_eq counts files
  · intro workspace input target format verbose given outcome finishes
    obtain ⟨analyzer, examination, warnings, made, examined, ended⟩ :=
      exists_of_run_check finishes
    obtain ⟨config, loaded, rfl, -⟩ := exists_of_analyzerFor_ok made
    refine ⟨analyzer, examination.report, made, loaded, ?_⟩
    change EndsByNumbers _ _ _ _ _ (run ..) _
    rw [ended]
    exact endsByNumbers examined warnings
  · intro workspace input analyzer standardInput format lower upper outcome le checked fails
    exact check_failingAt_of_le le checked fails

/-- A violation of a severity. -/
def sampleFinding (severity : Severity) : Violation :=
  TrailingSpaces.violationAt { severity } ⟨⟨["a"]⟩, 1, 1, 0, 1⟩

theorem numbers_decide_verdicts_sample :
    let first : LintReport := ⟨[sampleFinding .warning], 1⟩
    let pushed : Assembly := .push (.part first) (sampleFinding .error)
    let joined : Assembly := .extend (.part first) (.part ⟨[sampleFinding .error], 0⟩)
    let swapped : Assembly := .extend (.part ⟨[sampleFinding .error], 0⟩) (.part first)
    let checked := run strictWorkspace (Text.encode [' ']) ⟨.check inputTarget .text, false, none⟩
    pushed.parts = joined.parts ∧ pushed.report = joined.report ∧
      pushed.parts.Perm swapped.parts ∧ pushed.report.SameTotals swapped.report ∧
      Output.summary pushed.report = Output.summary swapped.report ∧
      swapped.report.SameTotals pushed.report ∧
      checked.failure = none ∧
      (∃ analyzer report, (analyzerFor strictWorkspace none inputTarget).2 = .ok analyzer ∧
        configFor strictWorkspace none inputTarget = .ok analyzer.config ∧
        EndsByNumbers strictWorkspace (Text.encode [' ']) analyzer true .text checked report) ∧
      ∃ outcome, outcome.exitCode = 1 ∧
        check Analyzer.sampleWorkspace ⟨#[]⟩ (Analyzer.sampleAnalyzer.failingAt .warning) false
          .compact = .ok outcome ∧
        check Analyzer.sampleWorkspace ⟨#[]⟩ (Analyzer.sampleAnalyzer.failingAt .info) false
          .compact = .ok outcome := by
  intro first pushed joined swapped checked
  obtain ⟨-, -, regroup, ofSummary, ofRun, lower⟩ := numbers_decide_verdicts
  have sameSummary : Output.summary pushed.report = Output.summary swapped.report := by cbv
  have finishes : checked.failure = none := by
    obtain ⟨warnings, ran⟩ := run_check_input rfl analyzerFor_inputTarget false .text [' ']
    exact congrArg Outcome.failure ran
  obtain ⟨outcome, fails, atWarning⟩ : ∃ outcome, outcome.exitCode = 1 ∧
      check Analyzer.sampleWorkspace ⟨#[]⟩ (Analyzer.sampleAnalyzer.failingAt .warning) false
        .compact = .ok outcome := by
    have analyzed : Analyzer.sampleAnalyzer.analyze Analyzer.sampleWorkspace = .ok ⟨[
        TrailingSpaces.violationAt {} ⟨⟨["a"]⟩, 1, 1, 0, 1⟩,
        TrailingSpaces.violationAt {} ⟨⟨["a"]⟩, 2, 2, 3, 1⟩], 1⟩ := by cbv
    rw [check, Analyzer.analyze_failingAt, analyzed]
    exact ⟨_, rfl, rfl⟩
  have otherOrder : pushed.parts.Perm swapped.parts := .swap ..
  exact ⟨rfl, (regroup pushed joined).1 rfl, otherOrder, (regroup pushed swapped).2 otherOrder,
    sameSummary, ofSummary _ _ sameSummary.symm, finishes, ofRun _ _ _ _ _ _ finishes,
    outcome, fails, atWarning, lower _ _ _ _ _ _ _ _ (by decide) atWarning fails⟩

end CommandLine
end TidyLines
