import Mathlib.Data.List.Perm.Basic
import TidyLines.CommandLine.Run
import TidyLines.Proofs.Analyzer.Building
import TidyLines.Proofs.Analyzer.Linting
import TidyLines.Proofs.Path.Spelled
import TidyLines.Proofs.Text.Decimal

/-!
# Violations on one line

The line of a violation begins with the name of a file, which may hold colons, blanks, numbers and
whole lines of other violations.  Still the line can be read in one way only, from its end: the
severity holds no blank and the numbers hold no colon (`Violation.display_eq_iff`).  So what one
rule against trailing white space finds has lines that are all different
(`Analyzer.compact_lines_tell_apart`).  A rule that is given twice reports each place twice
(`Analyzer.compact_lines_may_repeat`).
-/

namespace TidyLines

/-! ## Reading from the end -/

theorem Severity.blank_notMem_name (severity : Severity) : ' ' ∉ severity.name.toList := by
  cases severity <;> decide

theorem Severity.eq_of_name_eq {first second : Severity} (same : first.name = second.name) :
    first = second := by
  have found := congrArg ofExactName? same
  rwa [ofExactName?_name, ofExactName?_name, Option.some.injEq] at found

theorem Location.toList_position (location : Location) :
    location.position.toList = (location.file.text.toList ++ ':' :: Text.ofNat location.line) ++
      ':' :: Text.ofNat location.column := by
  simp [position, Text.ofNat]

theorem Location.eq_of_position_eq {first second : Location}
    (same : first.position = second.position) :
    first.file.text = second.file.text ∧ first.line = second.line ∧
      first.column = second.column := by
  have colon : ':'.isDigit = false := by decide
  rw [← String.toList_inj, toList_position, toList_position] at same
  obtain ⟨before, columns⟩ := Text.eq_of_append_cons_eq (Text.notMem_ofNat colon)
    (Text.notMem_ofNat colon) same
  obtain ⟨files, lines⟩ := Text.eq_of_append_cons_eq (Text.notMem_ofNat colon)
    (Text.notMem_ofNat colon) before
  exact ⟨String.toList_inj.mp files, Text.ofNat_injective lines, Text.ofNat_injective columns⟩

namespace Violation

/-- Two violations are of one severity at one line and column of one file. -/
structure SameFinding (first second : Violation) : Prop where
  file_text : first.location.file.text = second.location.file.text
  line : first.location.line = second.location.line
  column : first.location.column = second.location.column
  severity : first.severity = second.severity

theorem SameFinding.position_eq {first second : Violation} (same : SameFinding first second) :
    first.location.position = second.location.position := by
  rw [Location.position, Location.position, same.file_text, same.line, same.column]

theorem toList_display (violation : Violation) :
    violation.display.toList =
      ((violation.location.position.toList ++ [':']) ++ ' ' :: violation.severity.name.toList) ++
        (" [" ++ violation.code ++ "] " ++ violation.message).toList := by
  simp [display]

/-- The line of a violation tells file, line, column and severity, if rule and message are known. -/
theorem display_eq_iff {first second : Violation} (sameCode : first.code = second.code)
    (sameMessage : first.message = second.message) :
    first.display = second.display ↔ SameFinding first second := by
  constructor
  · intro same
    rw [← String.toList_inj, toList_display, toList_display, sameCode, sameMessage] at same
    obtain ⟨before, names⟩ := Text.eq_of_append_cons_eq (Severity.blank_notMem_name _)
      (Severity.blank_notMem_name _) (List.append_cancel_right same)
    obtain ⟨files, lines, columns⟩ :=
      Location.eq_of_position_eq (String.toList_inj.mp (List.append_cancel_right before))
    exact ⟨files, lines, columns, Severity.eq_of_name_eq (String.toList_inj.mp names)⟩
  · intro same
    rw [display, display, same.position_eq, same.severity, sameCode, sameMessage]

end Violation

/-! ## The rule against trailing white space -/

/-- A violation of the rule, whatever its settings, with its own severity or another one. -/
def TrailingSpaces.Yields (violation : Violation) : Prop :=
  ∃ (settings : TrailingSpaces) (source : Source) (severity : Severity),
    ∃ original ∈ settings.check source, violation = { original with severity }

namespace TrailingSpaces

theorem Yields.code_message_eq {violation : Violation} (yields : Yields violation) :
    violation.code = code ∧ violation.message = message := by
  obtain ⟨settings, source, severity, original, reported, rfl⟩ := yields
  obtain ⟨line, -, found⟩ := List.mem_filterMap.mp reported
  obtain ⟨location, -, rfl⟩ := Option.map_eq_some_iff.mp found
  exact ⟨rfl, rfl⟩

theorem Yields.display_eq_iff {first second : Violation} (firstYields : Yields first)
    (secondYields : Yields second) :
    first.display = second.display ↔ first.SameFinding second := by
  obtain ⟨firstCode, firstMessage⟩ := firstYields.code_message_eq
  obtain ⟨secondCode, secondMessage⟩ := secondYields.code_message_eq
  exact Violation.display_eq_iff (firstCode.trans secondCode.symm)
    (firstMessage.trans secondMessage.symm)

/-- Violations of the rule whose lines are all different. -/
structure ToldApart (violations : List Violation) : Prop where
  yields : ∀ violation ∈ violations, Yields violation
  lines_nodup : (violations.map Violation.display).Nodup

theorem toldApart_of_pairwise {violations : List Violation}
    (yields : ∀ violation ∈ violations, Yields violation)
    (differ : violations.Pairwise fun first second => ¬ first.SameFinding second) :
    ToldApart violations where
  yields
  lines_nodup := by
    rw [List.Nodup, List.pairwise_map]
    refine differ.imp_of_mem ?_
    intro first second firstMember secondMember apart sameLine
    exact apart ((yields first firstMember).display_eq_iff (yields second secondMember) |>.mp
      sameLine)

end TrailingSpaces

namespace Analyzer

variable {analyzer : Analyzer} {workspace : Workspace} {files : List FoundFile}
  {settings : TrailingSpaces}

theorem yields_of_mem_lintText (noOther : analyzer.rules.Sublist [TrailingSpaces.rule settings])
    {name : Path} {text : Text} {violation : Violation}
    (member : violation ∈ analyzer.lintText name text) : TrailingSpaces.Yields violation := by
  obtain ⟨rule, enabled, reported⟩ := List.mem_flatMap.mp member
  obtain rfl := List.mem_singleton.mp (noOther.subset (List.mem_filter.mp enabled).1)
  rw [withSeverity] at reported
  split at reported
  next => exact ⟨settings, _, violation.severity, violation, reported, rfl⟩
  next severity _ =>
    obtain ⟨original, found, rfl⟩ := List.mem_map.mp reported
    exact ⟨settings, _, severity, original, found, rfl⟩

theorem relative_of_sublist (noOther : analyzer.rules.Sublist [TrailingSpaces.rule settings]) :
    ∀ rule ∈ analyzer.rules, rule.ReportsRelatively := by
  intro rule member
  obtain rfl := List.mem_singleton.mp (noOther.subset member)
  exact settings.reportsRelatively_rule

/-- The files that are found are reported under texts of their own. -/
theorem reportedPath_eq_of_text_eq (wellFormed : workspace.tree.WellFormed)
    (discovered : analyzer.discover workspace = .ok files) {first second : FoundFile}
    (firstFound : first ∈ files) (secondFound : second ∈ files)
    (sameText : (analyzer.reportedPath workspace first).text =
      (analyzer.reportedPath workspace second).text) :
    analyzer.reportedPath workspace first = analyzer.reportedPath workspace second := by
  rcases analyzer.search.find_cases (analyzer.discover_eq_ok_iff.mp discovered) with
    ⟨-, address, bytes, -, rfl, -⟩ | ⟨noFile, root, -, rfl⟩
  · rw [List.mem_singleton.mp firstFound, List.mem_singleton.mp secondFound]
  · have isSpelled : ∀ file ∈ analyzer.search.filesBelow workspace root,
        (analyzer.reportedPath workspace file).IsSpelled := by
      intro file member
      obtain ⟨names, reaches⟩ := analyzer.search.exists_reaches wellFormed member
      rw [analyzer.reportedPath_of_reaches noFile reaches]
      exact Path.isSpelled_names reaches.nonempty reaches.are_names
    exact (isSpelled first firstFound).eq_of_text_eq (isSpelled second secondFound) sameText

/-- No two violations of a report are at one line of files with the same text. -/
theorem pairwise_not_sameFinding (wellFormed : workspace.tree.WellFormed)
    (single : analyzer.rules = [TrailingSpaces.rule settings])
    (discovered : analyzer.discover workspace = .ok files) {report : LintReport}
    (covers : analyzer.Covers workspace files report) :
    report.violations.Pairwise fun first second => ¬ first.SameFinding second := by
  refine (analyzer.pairwise_strictlyBefore wellFormed single discovered covers).imp_of_mem ?_
  intro first second firstMember secondMember before same
  obtain ⟨firstFile, firstFound, -, firstIn⟩ := covers.file_checked first firstMember
  obtain ⟨secondFile, secondFound, -, secondIn⟩ := covers.file_checked second secondMember
  have sameText := same.file_text
  rw [firstIn, secondIn] at sameText
  have samePath := reportedPath_eq_of_text_eq wellFormed discovered firstFound secondFound sameText
  exact before.line_ne (by rw [firstIn, secondIn, samePath]) same.line

theorem toldApart_lintText (noOther : analyzer.rules.Sublist [TrailingSpaces.rule settings])
    (name : Path) (text : Text) : TrailingSpaces.ToldApart (analyzer.lintText name text) := by
  refine TrailingSpaces.toldApart_of_pairwise (fun _ => yields_of_mem_lintText noOther) ?_
  rcases List.sublist_singleton.mp noOther with none | single
  · rw [lintText, lint, enabledRules, none]
    exact .nil
  · refine (analyzer.pairwise_line_lintText single name text).imp ?_
    exact fun before same => before.ne same.line

theorem toldApart_analyze (noOther : analyzer.rules.Sublist [TrailingSpaces.rule settings])
    (wellFormed : workspace.tree.WellFormed) {report : LintReport}
    (succeeded : analyzer.analyze workspace = .ok report) :
    TrailingSpaces.ToldApart report.violations := by
  have relative := relative_of_sublist noOther
  obtain ⟨files, read, rfl⟩ := analyzer.exists_of_analyze_ok wellFormed succeeded
  have yields : ∀ violation ∈ analyzer.allViolations workspace files,
      TrailingSpaces.Yields violation := by
    intro violation member
    rw [analyzer.allViolations_eq relative] at member
    obtain ⟨entry, -, reported⟩ := List.mem_flatMap.mp member
    exact yields_of_mem_lintText noOther reported
  refine TrailingSpaces.toldApart_of_pairwise
    (fun violation member => yields violation (List.mem_mergeSort.mp member)) ?_
  rcases List.sublist_singleton.mp noOther with none | single
  · have nothing : analyzer.allViolations workspace files = [] := by
      simp [analyzer.allViolations_eq relative, lintText, lint, enabledRules, none]
    rw [nothing, List.mergeSort_nil]
    exact .nil
  · have discovered := (analyzer.readable_eq_ok_iff.mp read).1
    exact pairwise_not_sameFinding wellFormed single discovered
      (analyzer.covers_allViolations wellFormed relative discovered)

/-! ## One rule among others -/

/-- An analyzer with other rules. -/
def withRules (analyzer : Analyzer) (rules : List Rule) : Analyzer := { analyzer with rules }

theorem lint_withRules_append (first second : List Rule) (source : Source) :
    (analyzer.withRules (first ++ second)).lint source =
      (analyzer.withRules first).lint source ++ (analyzer.withRules second).lint source := by
  rw [lint, enabledRules, withRules, List.filter_append, List.flatMap_append]
  rfl

/-- What one rule finds stands apart from what the others find, up to the order. -/
theorem allViolations_perm (before : List Rule) (rule : Rule) (behind : List Rule) :
    ((analyzer.withRules (before ++ rule :: behind)).allViolations workspace files).Perm
      ((analyzer.withRules [rule]).allViolations workspace files ++
        (analyzer.withRules (before ++ behind)).allViolations workspace files) := by
  refine .trans ?_ (List.flatMap_append_perm _ _ _).symm
  refine List.Perm.flatMap_left _ fun entry _ => ?_
  rw [lint_withRules_append, ← List.singleton_append, lint_withRules_append,
    lint_withRules_append before]
  exact List.perm_append_comm_assoc ..

theorem exists_parts_of_analyze_ok (wellFormed : workspace.tree.WellFormed)
    {before behind : List Rule} {rule : Rule} (listed : analyzer.rules = before ++ rule :: behind)
    {report : LintReport} (succeeded : analyzer.analyze workspace = .ok report) :
    ∃ own others, (analyzer.withRules [rule]).analyze workspace = .ok own ∧
      (analyzer.withRules (before ++ behind)).analyze workspace = .ok others ∧
      report.violations.Perm (own.violations ++ others.violations) := by
  obtain ⟨files, read, rfl⟩ := analyzer.exists_of_analyze_ok wellFormed succeeded
  have analyze_withRules : ∀ rules, (analyzer.withRules rules).analyze workspace =
      .ok ⟨((analyzer.withRules rules).allViolations workspace files).mergeSort inOrder,
        (checked files).length⟩ := by
    intro rules
    have alsoRead : (analyzer.withRules rules).readable workspace = .ok files := read
    rw [(analyzer.withRules rules).analyze_eq wellFormed, alsoRead]
    rfl
  refine ⟨_, _, analyze_withRules _, analyze_withRules _, ?_⟩
  have all : analyzer.allViolations workspace files =
      (analyzer.withRules (before ++ rule :: behind)).allViolations workspace files := by
    rw [← listed]
    rfl
  -- Sorting the report and its parts does not change what stands in them.
  rw [all]
  refine (List.mergeSort_perm ..).trans ((allViolations_perm before rule behind).trans ?_)
  exact (List.mergeSort_perm ..).symm.append (List.mergeSort_perm ..).symm

end Analyzer

namespace CommandLine

/-- The violations that a check tells of. -/
inductive Finds (workspace : Workspace) (input : ByteArray) (analyzer : Analyzer) :
    Bool → List Violation → Prop where
  | inText (text : Text) (decoded : Text.decode? input = some text) :
    Finds workspace input analyzer true (analyzer.lintText standardInputName text)
  | inFiles (report : LintReport) (analyzed : analyzer.analyze workspace = .ok report) :
    Finds workspace input analyzer false report.violations

/-- A compact report has a line for each violation. -/
theorem exists_finds_of_check {workspace : Workspace} {input : ByteArray} {analyzer : Analyzer}
    {standardInput : Bool} {outcome : Outcome}
    (finished : check workspace input analyzer standardInput .compact = .ok outcome) :
    ∃ violations, Finds workspace input analyzer standardInput violations ∧
      outcome.output = printLines (violations.map Violation.display) := by
  cases standardInput with
  | true =>
      obtain ⟨text, read, made⟩ := bind_eq_ok_iff.mp finished
      obtain rfl := Except.ok.inj made
      refine ⟨_, .inText text ?_, rfl⟩
      rw [mapError_eq_ok_iff, inputText] at read
      split at read
      next decoded =>
        obtain rfl := Except.ok.inj read
        exact decoded
      next => cases read
  | false =>
      obtain ⟨report, analyzed, made⟩ := bind_eq_ok_iff.mp finished
      obtain rfl := Except.ok.inj made
      exact ⟨_, .inFiles report (mapError_eq_ok_iff.mp analyzed), rfl⟩

end CommandLine

namespace Analyzer

/-- The lines of compact reports tell the violations of the rule against trailing white space apart,
whatever the names of the files are: equal lines mean the same file, line, column and severity.  The
lines of one report that are about the findings of one such rule are all different, whatever the
rules beside it report, and with no rules beside it these are all lines that are printed. -/
theorem compact_lines_tell_apart :
    (∀ first second, TrailingSpaces.Yields first → TrailingSpaces.Yields second →
      (first.display = second.display ↔ first.SameFinding second)) ∧
    (∀ (analyzer : Analyzer) (settings : TrailingSpaces) (before behind : List Rule),
      analyzer.rules = before ++ TrailingSpaces.rule settings :: behind →
      ∀ workspace : Workspace, workspace.tree.WellFormed →
        ∀ report, analyzer.analyze workspace = .ok report → ∃ own others,
          (analyzer.withRules [TrailingSpaces.rule settings]).analyze workspace = .ok own ∧
          (analyzer.withRules (before ++ behind)).analyze workspace = .ok others ∧
          report.violations.Perm (own.violations ++ others.violations) ∧
          TrailingSpaces.ToldApart own.violations) ∧
    ∀ (analyzer : Analyzer) (settings : TrailingSpaces),
      analyzer.rules.Sublist [TrailingSpaces.rule settings] →
      ∀ workspace : Workspace, workspace.tree.WellFormed →
        (∀ report, analyzer.analyze workspace = .ok report →
          TrailingSpaces.ToldApart report.violations) ∧
        ∀ input standardInput outcome,
          CommandLine.check workspace input analyzer standardInput .compact = .ok outcome →
            ∃ violations, CommandLine.Finds workspace input analyzer standardInput violations ∧
              TrailingSpaces.ToldApart violations ∧
              outcome.output = CommandLine.printLines (violations.map Violation.display) := by
  refine ⟨fun _ _ => TrailingSpaces.Yields.display_eq_iff, ?_, ?_⟩
  · intro analyzer settings before behind listed workspace wellFormed report succeeded
    obtain ⟨own, others, ownReported, othersReported, perm⟩ :=
      exists_parts_of_analyze_ok wellFormed listed succeeded
    exact ⟨own, others, ownReported, othersReported, perm,
      toldApart_analyze (.refl [TrailingSpaces.rule settings]) wellFormed ownReported⟩
  · intro analyzer settings noOther workspace wellFormed
    refine ⟨fun _ => toldApart_analyze noOther wellFormed, ?_⟩
    intro input standardInput outcome finished
    obtain ⟨violations, finds, printed⟩ := CommandLine.exists_finds_of_check finished
    refine ⟨violations, finds, ?_, printed⟩
    cases finds with
    | inText text _ => exact toldApart_lintText noOther _ text
    | inFiles report analyzed => exact toldApart_analyze noOther wellFormed analyzed

/-- A project of two files, of which one has the place of the other one as its name. -/
def misnamedWorkspace : Workspace where
  tree := ⟨[
    (["p"], .directory),
    (["p", "a"], .file (Text.encode [' '])),
    (["p", "a:1"], .file (Text.encode [' ']))]⟩
  directory := ["p"]

/-- The analyzer of the directory with the rule against trailing white space given twice. -/
def doubledAnalyzer : Analyzer :=
  sampleAnalyzer.withRules [TrailingSpaces.rule {}, TrailingSpaces.rule {}]

theorem compact_lines_tell_apart_sample :
    misnamedWorkspace.tree.WellFormed ∧
      (∃ first second report outcome,
        sampleAnalyzer.analyze misnamedWorkspace = .ok report ∧
        report.violations.map Violation.display = [
          "a:1:1: error [TL001] Trailing space(s)", "a:1:1:1: error [TL001] Trailing space(s)"] ∧
        TrailingSpaces.ToldApart report.violations ∧
        TrailingSpaces.Yields first ∧ TrailingSpaces.Yields second ∧
        (first.display = second.display ↔ first.SameFinding second) ∧
        CommandLine.check misnamedWorkspace ⟨#[]⟩ sampleAnalyzer false .compact = .ok outcome ∧
        ∃ violations, CommandLine.Finds misnamedWorkspace ⟨#[]⟩ sampleAnalyzer false violations ∧
          TrailingSpaces.ToldApart violations ∧
          outcome.output = CommandLine.printLines (violations.map Violation.display)) ∧
      ∃ report own others, doubledAnalyzer.analyze misnamedWorkspace = .ok report ∧
        (doubledAnalyzer.withRules [TrailingSpaces.rule {}]).analyze misnamedWorkspace = .ok own ∧
        (doubledAnalyzer.withRules [TrailingSpaces.rule {}]).analyze misnamedWorkspace =
          .ok others ∧
        report.violations.Perm (own.violations ++ others.violations) ∧
        TrailingSpaces.ToldApart own.violations := by
  have wellFormed : misnamedWorkspace.tree.WellFormed := by decide +kernel
  have noOther : sampleAnalyzer.rules.Sublist [TrailingSpaces.rule {}] := .refl _
  have succeeded : sampleAnalyzer.analyze misnamedWorkspace = .ok ⟨[
      TrailingSpaces.violationAt {} ⟨⟨["a"]⟩, 1, 1, 0, 1⟩,
      TrailingSpaces.violationAt {} ⟨⟨["a:1"]⟩, 1, 1, 0, 1⟩], 2⟩ := by cbv
  obtain ⟨outcome, checked⟩ : ∃ outcome,
      CommandLine.check misnamedWorkspace ⟨#[]⟩ sampleAnalyzer false .compact = .ok outcome := by
    rw [CommandLine.check, succeeded]
    exact ⟨_, rfl⟩
  obtain ⟨report, doubled⟩ : ∃ report,
      doubledAnalyzer.analyze misnamedWorkspace = .ok report := ⟨_, by cbv⟩
  obtain ⟨tellsApart, ofOwn, ofAnalyzer⟩ := compact_lines_tell_apart
  obtain ⟨ofReport, ofCheck⟩ := ofAnalyzer _ _ noOther _ wellFormed
  have told := ofReport _ succeeded
  have firstYields := told.yields _ List.mem_cons_self
  have secondYields := told.yields _ (List.mem_cons_of_mem _ List.mem_cons_self)
  obtain ⟨own, others, parts⟩ :=
    ofOwn doubledAnalyzer {} [] [TrailingSpaces.rule {}] rfl _ wellFormed _ doubled
  exact ⟨wellFormed, ⟨_, _, _, outcome, succeeded, by cbv, told, firstYields, secondYields,
    tellsApart _ _ firstYields secondYields, checked, ofCheck _ _ _ checked⟩,
    report, own, others, doubled, parts⟩

/-- With the rule against trailing white space given twice all lines come twice. -/
theorem compact_lines_may_repeat :
    (∀ rule ∈ doubledAnalyzer.rules, ∃ settings, rule = TrailingSpaces.rule settings) ∧
      ∃ report, doubledAnalyzer.analyze misnamedWorkspace = .ok report ∧
        report.violations.map Violation.display = [
          "a:1:1: error [TL001] Trailing space(s)", "a:1:1: error [TL001] Trailing space(s)",
          "a:1:1:1: error [TL001] Trailing space(s)",
          "a:1:1:1: error [TL001] Trailing space(s)"] ∧
        ¬ (report.violations.map Violation.display).Nodup := by
  have succeeded : doubledAnalyzer.analyze misnamedWorkspace = .ok ⟨[
      TrailingSpaces.violationAt {} ⟨⟨["a"]⟩, 1, 1, 0, 1⟩,
      TrailingSpaces.violationAt {} ⟨⟨["a"]⟩, 1, 1, 0, 1⟩,
      TrailingSpaces.violationAt {} ⟨⟨["a:1"]⟩, 1, 1, 0, 1⟩,
      TrailingSpaces.violationAt {} ⟨⟨["a:1"]⟩, 1, 1, 0, 1⟩], 2⟩ := by cbv
  refine ⟨?_, _, succeeded, by cbv, ?_⟩
  · intro rule member
    have isRule : rule = TrailingSpaces.rule {} := by
      simpa [doubledAnalyzer, withRules] using member
    exact ⟨{}, isRule⟩
  · simp

end Analyzer

end TidyLines
