import TidyLines.Proofs.Analyzer.Runs
import TidyLines.Proofs.List.StableSort
import TidyLines.Proofs.Rule.Locality

/-!
# What linting reports

A report brings the violations of all texts into one order.  Sorting is stable and no two files are
reported under one path, so that the part of a report that is about one file is what the rules say
about its text alone, sorted by line and column (`Analyzer.Covers`).
-/

namespace TidyLines.Analyzer

/-! ## The order of violations -/

/-- Violations by file. -/
def fileOrder (first second : Violation) : Ordering :=
  first.location.file.order second.location.file

/-- Violations by line and column. -/
def lineOrder : Violation → Violation → Ordering :=
  compareLex (compareOn (·.location.line)) (compareOn (·.location.column))

/-- Whether one violation comes before another one by line and column, or both have the same. -/
def inLineOrder (first second : Violation) : Bool := (lineOrder first second).isLE

instance : Std.TransCmp fileOrder where
  eq_swap := by
    intro first second
    exact @Std.OrientedCmp.eq_swap _ Path.order _ _ _
  isLE_trans := by
    intro first second third
    exact @Std.TransCmp.isLE_trans _ Path.order _ _ _ _

instance : Std.TransCmp lineOrder :=
  inferInstanceAs (Std.TransCmp (compareLex _ _))

theorem inOrder_eq_isLE (first second : Violation) :
    inOrder first second = (compareLex fileOrder lineOrder first second).isLE := by
  change (compareLex fileOrder lineOrder first second != .gt) = _
  cases compareLex fileOrder lineOrder first second <;> rfl

theorem inOrder_trans (first second third : Violation) (before : inOrder first second = true)
    (after : inOrder second third = true) : inOrder first third = true := by
  rw [inOrder_eq_isLE] at before after ⊢
  exact Std.TransCmp.isLE_trans before after

theorem inOrder_total (first second : Violation) :
    (inOrder first second || inOrder second first) = true := by
  rw [inOrder_eq_isLE, inOrder_eq_isLE,
    @Std.OrientedCmp.eq_swap _ (compareLex fileOrder lineOrder) _ first second]
  cases compareLex fileOrder lineOrder second first <;> rfl

theorem inOrder_of_file_eq {first second : Violation}
    (sameFile : first.location.file = second.location.file) :
    inOrder first second = inLineOrder first second := by
  have tie : fileOrder first second = .eq := by
    rw [fileOrder, sameFile]
    exact Std.ReflCmp.compare_self
  rw [inOrder_eq_isLE, compareLex, tie, inLineOrder]
  rfl

theorem inOrder_of_place_eq {first second : Violation}
    (sameFile : first.location.file = second.location.file)
    (sameLine : first.location.line = second.location.line)
    (sameColumn : first.location.column = second.location.column) :
    inOrder first second = true := by
  simp [inOrder_of_file_eq sameFile, inLineOrder, lineOrder, compareLex, compareOn, sameLine,
    sameColumn]

theorem mergeSort_inOrder_of_file_eq {violations : List Violation} {path : Path}
    (inFile : ∀ violation ∈ violations, violation.location.file = path) :
    violations.mergeSort inOrder = violations.mergeSort inLineOrder := by
  have sameOrder : ∀ first ∈ violations, ∀ second ∈ violations,
      inOrder first second = inLineOrder first second := by
    intro first firstMember second secondMember
    exact inOrder_of_file_eq ((inFile first firstMember).trans (inFile second secondMember).symm)
  simpa using List.map_mergeSort (f := id) sameOrder

/-! ## One text -/

variable (analyzer : Analyzer) {workspace : Workspace} {files : List FoundFile}

theorem map_location_withSeverity (rule : Rule) (violations : List Violation) :
    (analyzer.withSeverity rule violations).map Violation.location =
      violations.map Violation.location := by
  rw [withSeverity]
  split
  next => rfl
  next severity => simp [List.map_map, Function.comp_def]

/-- A file is linted as a text under the path that is reported. -/
theorem lint_sourceOf (relative : ∀ rule ∈ analyzer.rules, rule.ReportsRelatively)
    (file : FoundFile) (text : Text) :
    analyzer.lint (sourceOf (analyzer.baseDirectory workspace) file text) =
      analyzer.lintText (analyzer.reportedPath workspace file) text := by
  rw [lintText, lint, lint]
  apply List.flatMap_congr
  intro rule member
  have listed : rule ∈ analyzer.rules := (List.mem_filter.mp member).1
  exact congrArg _ ((relative rule listed).check_eq _ _ rfl rfl)

theorem file_of_mem_lintText (relative : ∀ rule ∈ analyzer.rules, rule.ReportsRelatively)
    {path : Path} {text : Text} {violation : Violation}
    (member : violation ∈ analyzer.lintText path text) : violation.location.file = path := by
  obtain ⟨rule, enabled, reported⟩ := List.mem_flatMap.mp member
  have listed : rule ∈ analyzer.rules := (List.mem_filter.mp enabled).1
  have atPlace : violation.location ∈
      (rule.check (.named path text)).map Violation.location := by
    rw [← analyzer.map_location_withSeverity rule]
    exact List.mem_map_of_mem reported
  obtain ⟨original, found, sameLocation⟩ := List.mem_map.mp atPlace
  rw [← sameLocation]
  exact (relative rule listed).file_eq _ original found

/-! ## All texts -/

/-- A report tells of the files found in a workspace. -/
structure Covers (workspace : Workspace) (files : List FoundFile) (report : LintReport) :
    Prop where
  filesChecked_eq : report.filesChecked =
    files.countP fun file => (Text.decode? file.bytes).isSome
  sorted : report.violations.Pairwise fun first second => inOrder first second = true
  file_checked : ∀ violation ∈ report.violations, ∃ file ∈ files,
    (Text.decode? file.bytes).isSome ∧
      violation.location.file = analyzer.reportedPath workspace file
  of_file : ∀ file ∈ files, ∀ text, Text.decode? file.bytes = some text →
    (report.violations.filter fun violation =>
        violation.location.file = analyzer.reportedPath workspace file) =
      (analyzer.lintText (analyzer.reportedPath workspace file) text).mergeSort inLineOrder
  /-- Violations at one place stand in the order of the rules, and those of one rule in the order in
  which it reports them. -/
  ties : ∀ file ∈ files, ∀ text, Text.decode? file.bytes = some text → ∀ line column,
    (report.violations.filter fun violation =>
        violation.location.file = analyzer.reportedPath workspace file ∧
          violation.location.line = line ∧ violation.location.column = column) =
      analyzer.enabledRules.flatMap fun rule =>
        (analyzer.withSeverity rule
            (rule.check (.named (analyzer.reportedPath workspace file) text))).filter
          fun violation => violation.location.line = line ∧ violation.location.column = column

theorem allViolations_eq (relative : ∀ rule ∈ analyzer.rules, rule.ReportsRelatively) :
    analyzer.allViolations workspace files = (checked files).flatMap fun entry =>
      analyzer.lintText (analyzer.reportedPath workspace entry.1) entry.2 := by
  rw [allViolations]
  apply List.flatMap_congr
  intro entry member
  exact analyzer.lint_sourceOf relative entry.1 entry.2

/-- Where all items but one yield nothing, all together yield what this one does. -/
theorem flatMap_eq_of_key {Item Key Other : Type} {items : List Item} {key : Item → Key}
    (apart : (items.map key).Nodup) {item : Item} (member : item ∈ items)
    {yield : Item → List Other} (elsewhere : ∀ other, key other ≠ key item → yield other = []) :
    items.flatMap yield = yield item := by
  induction items with
  | nil => cases member
  | cons first others ih =>
      have apartFromFirst : ∀ other ∈ others, key first ≠ key other :=
        fun other => List.rel_of_pairwise_cons (List.pairwise_map.mp apart)
      rw [List.flatMap_cons]
      rcases List.mem_cons.mp member with rfl | later
      · have nothing : others.flatMap yield = [] := by
          rw [List.flatMap_eq_nil_iff]
          intro other inOthers
          exact elsewhere other (apartFromFirst other inOthers).symm
        rw [nothing, List.append_nil]
      · rw [elsewhere first (apartFromFirst item later), List.nil_append, ih apart.of_cons later]

theorem filter_allViolations (relative : ∀ rule ∈ analyzer.rules, rule.ReportsRelatively)
    (apart : (files.map (analyzer.reportedPath workspace)).Nodup) {file : FoundFile} {text : Text}
    (isChecked : (file, text) ∈ checked files) :
    ((analyzer.allViolations workspace files).filter fun violation =>
        violation.location.file = analyzer.reportedPath workspace file) =
      analyzer.lintText (analyzer.reportedPath workspace file) text := by
  have checkedApart :
      ((checked files).map fun entry => analyzer.reportedPath workspace entry.1).Nodup := by
    have sublist : ((checked files).map Prod.fst).Sublist files := by
      rw [map_fst_checked]
      exact List.filter_sublist
    rw [← Function.comp_def (analyzer.reportedPath workspace) Prod.fst, ← List.map_map]
    exact apart.sublist (sublist.map _)
  rw [analyzer.allViolations_eq relative, List.filter_flatMap,
    flatMap_eq_of_key checkedApart isChecked, List.filter_eq_self]
  · intro violation member
    simpa using analyzer.file_of_mem_lintText relative member
  · intro other differs
    rw [List.filter_eq_nil_iff]
    intro violation member
    simpa [analyzer.file_of_mem_lintText relative member] using differs

theorem exists_checked_of_mem_allViolations
    (relative : ∀ rule ∈ analyzer.rules, rule.ReportsRelatively) {violation : Violation}
    (member : violation ∈ analyzer.allViolations workspace files) :
    ∃ entry ∈ checked files,
      violation.location.file = analyzer.reportedPath workspace entry.1 := by
  rw [analyzer.allViolations_eq relative] at member
  obtain ⟨entry, isChecked, reported⟩ := List.mem_flatMap.mp member
  exact ⟨entry, isChecked, analyzer.file_of_mem_lintText relative reported⟩

theorem covers_allViolations (wellFormed : workspace.tree.WellFormed)
    (relative : ∀ rule ∈ analyzer.rules, rule.ReportsRelatively)
    (discovered : analyzer.discover workspace = .ok files) :
    analyzer.Covers workspace files
      ⟨(analyzer.allViolations workspace files).mergeSort inOrder, (checked files).length⟩ := by
  have apart := analyzer.nodup_map_reportedPath wellFormed discovered
  constructor
  case filesChecked_eq => exact length_checked files
  case sorted => exact List.pairwise_mergeSort inOrder_trans inOrder_total _
  case file_checked =>
    intro violation member
    obtain ⟨⟨file, text⟩, isChecked, inFile⟩ :=
      analyzer.exists_checked_of_mem_allViolations relative (List.mem_mergeSort.mp member)
    obtain ⟨inFiles, decoded⟩ := mem_checked.mp isChecked
    exact ⟨file, inFiles, Option.isSome_of_mem decoded, inFile⟩
  case of_file =>
    intro file member text decoded
    dsimp only
    rw [StableSort.filter_mergeSort inOrder_trans inOrder_total,
      analyzer.filter_allViolations relative apart (mem_checked.mpr ⟨member, decoded⟩)]
    exact mergeSort_inOrder_of_file_eq fun _ => analyzer.file_of_mem_lintText relative
  case ties =>
    intro file member text decoded line column
    dsimp only
    -- Violations at one place are ties, which sorting leaves in the order of the loops.
    rw [StableSort.filter_mergeSort_of_ties inOrder_trans inOrder_total, ← List.filter_flatMap]
    · change _ = (analyzer.lintText (analyzer.reportedPath workspace file) text).filter _
      rw [← analyzer.filter_allViolations relative apart (mem_checked.mpr ⟨member, decoded⟩),
        List.filter_filter]
      apply List.filter_congr
      intro violation _
      rw [Bool.decide_and, Bool.and_comm]
    · intro first second firstHere secondHere
      obtain ⟨firstFile, firstLine, firstColumn⟩ := of_decide_eq_true firstHere
      obtain ⟨secondFile, secondLine, secondColumn⟩ := of_decide_eq_true secondHere
      exact inOrder_of_place_eq (firstFile.trans secondFile.symm)
        (firstLine.trans secondLine.symm) (firstColumn.trans secondColumn.symm)

/-! ## One violation a line -/

/-- Whether one violation is in an earlier file than another one or on an earlier line of the same
file. -/
def StrictlyBefore (first second : Violation) : Prop :=
  first.location.file.order second.location.file = .lt ∨
    first.location.file = second.location.file ∧ first.location.line < second.location.line

variable {settings : TrailingSpaces}

theorem enabledRules_cases {rule : Rule} (single : analyzer.rules = [rule]) :
    analyzer.enabledRules = [rule] ∨ analyzer.enabledRules = [] := by
  cases enabled : analyzer.config.isEnabled rule.name <;> simp [enabledRules, single, enabled]

theorem pairwise_line_lintText (single : analyzer.rules = [TrailingSpaces.rule settings])
    (path : Path) (text : Text) :
    (analyzer.lintText path text).Pairwise fun first second =>
      first.location.line < second.location.line := by
  rw [lintText, lint]
  rcases analyzer.enabledRules_cases single with onlyRule | noRule
  · have byLocation : ((settings.check (.named path text)).map Violation.location).Pairwise
        fun first second => first.line < second.line :=
      List.pairwise_map.mpr (settings.pairwise_line_check _)
    rw [← analyzer.map_location_withSeverity (TrailingSpaces.rule settings),
      List.pairwise_map] at byLocation
    rw [onlyRule, List.flatMap_singleton]
    exact byLocation
  · rw [noRule, List.flatMap_nil]
    exact .nil

theorem inLineOrder_of_line_lt {first second : Violation}
    (earlier : first.location.line < second.location.line) :
    inLineOrder first second = true := by
  have less : compareOn (fun violation : Violation => violation.location.line) first second =
      .lt := Nat.compare_eq_lt.mpr earlier
  rw [inLineOrder, lineOrder, compareLex, less]
  rfl

theorem reportedPath_eq_of_order_eq (wellFormed : workspace.tree.WellFormed)
    (discovered : analyzer.discover workspace = .ok files) {first second : FoundFile}
    (firstFound : first ∈ files) (secondFound : second ∈ files)
    (tie : (analyzer.reportedPath workspace first).order (analyzer.reportedPath workspace second) =
      .eq) :
    analyzer.reportedPath workspace first = analyzer.reportedPath workspace second := by
  by_contra differ
  have symmetric : Std.Symm fun one other : FoundFile =>
      (analyzer.reportedPath workspace one).order (analyzer.reportedPath workspace other) ≠ .eq :=
    ⟨fun _ _ notTied tied => notTied (Std.OrientedCmp.eq_symm tied)⟩
  have apart := (analyzer.pairwise_order_reportedPath_ne wellFormed discovered).forall
    firstFound secondFound
  exact apart (fun same => differ (congrArg _ same)) tie

/-- The rule against trailing white space alone reports at most one violation for each line. -/
theorem pairwise_strictlyBefore (wellFormed : workspace.tree.WellFormed)
    (single : analyzer.rules = [TrailingSpaces.rule settings])
    (discovered : analyzer.discover workspace = .ok files) {report : LintReport}
    (covers : analyzer.Covers workspace files report) :
    report.violations.Pairwise StrictlyBefore := by
  rw [List.pairwise_iff_forall_sublist]
  intro first second inReport
  obtain ⟨firstFile, firstFound, firstDecodes, firstIn⟩ :=
    covers.file_checked first (inReport.subset (by simp))
  obtain ⟨secondFile, secondFound, -, secondIn⟩ :=
    covers.file_checked second (inReport.subset (by simp))
  have sorted : inOrder first second = true := by
    simpa using covers.sorted.sublist inReport
  cases order : first.location.file.order second.location.file with
  | lt => exact Or.inl order
  | gt =>
      rw [inOrder_eq_isLE, compareLex, fileOrder, order] at sorted
      cases sorted
  | eq =>
      rw [firstIn, secondIn] at order
      have samePath :=
        analyzer.reportedPath_eq_of_order_eq wellFormed discovered firstFound secondFound order
      have sameFile : first.location.file = second.location.file := by
        rw [firstIn, secondIn, samePath]
      refine Or.inr ⟨sameFile, ?_⟩
      -- Both are in the part of the report that is about this file, which keeps the order of lines.
      obtain ⟨text, decoded⟩ := Option.isSome_iff_exists.mp firstDecodes
      have byLine :=
        analyzer.pairwise_line_lintText single (analyzer.reportedPath workspace firstFile) text
      have inText := inReport.filter fun violation =>
        violation.location.file = analyzer.reportedPath workspace firstFile
      rw [covers.of_file firstFile firstFound text decoded,
        List.mergeSort_of_pairwise (byLine.imp inLineOrder_of_line_lt)] at inText
      simpa [firstIn, secondIn, samePath] using byLine.sublist inText

theorem StrictlyBefore.line_ne {first second : Violation} (before : StrictlyBefore first second)
    (sameFile : first.location.file = second.location.file) :
    first.location.line ≠ second.location.line := by
  rcases before with earlierFile | ⟨-, earlierLine⟩
  · have tie : second.location.file.order second.location.file = .eq := Std.ReflCmp.compare_self
    rw [sameFile, tie] at earlierFile
    cases earlierFile
  · exact earlierLine.ne

theorem length_filter_le_one {violations : List Violation}
    (strictly : violations.Pairwise StrictlyBefore) (path : Path) (line : Nat) :
    (violations.filter fun violation =>
      violation.location.file = path ∧ violation.location.line = line).length ≤ 1 := by
  have noTwo : (violations.filter fun violation =>
      violation.location.file = path ∧ violation.location.line = line).Pairwise
        fun _ _ => False := by
    refine (strictly.sublist List.filter_sublist).imp_of_mem ?_
    intro first second firstMember secondMember before
    obtain ⟨firstFile, firstLine⟩ := of_decide_eq_true (List.mem_filter.mp firstMember).2
    obtain ⟨secondFile, secondLine⟩ := of_decide_eq_true (List.mem_filter.mp secondMember).2
    exact before.line_ne (firstFile.trans secondFile.symm) (firstLine.trans secondLine.symm)
  generalize violations.filter _ = here at noTwo ⊢
  rcases here with _ | ⟨first, _ | ⟨second, others⟩⟩
  · exact Nat.zero_le 1
  · exact Nat.le_refl 1
  · exact ((List.pairwise_cons.mp noTwo).1 second List.mem_cons_self).elim

/-- A run that succeeds with rules that report under relative paths tells of all texts that it
finds, sorted by file, line and column.  With the rule against trailing white space alone it tells
of every line at most once. -/
theorem analyze_covers_found_texts (wellFormed : workspace.tree.WellFormed)
    (relative : ∀ rule ∈ analyzer.rules, rule.ReportsRelatively) {report : LintReport}
    (succeeded : analyzer.analyze workspace = .ok report) :
    ∃ files, analyzer.discover workspace = .ok files ∧ analyzer.Covers workspace files report ∧
      ∀ settings, analyzer.rules = [TrailingSpaces.rule settings] →
        report.violations.Pairwise StrictlyBefore ∧ ∀ path line,
          (report.violations.filter fun violation =>
            violation.location.file = path ∧ violation.location.line = line).length ≤ 1 := by
  obtain ⟨files, read, rfl⟩ := analyzer.exists_of_analyze_ok wellFormed succeeded
  have discovered := (analyzer.readable_eq_ok_iff.mp read).1
  have covers := analyzer.covers_allViolations wellFormed relative discovered
  refine ⟨files, discovered, covers, ?_⟩
  intro settings single
  have strictly := analyzer.pairwise_strictlyBefore wellFormed single discovered covers
  exact ⟨strictly, length_filter_le_one strictly⟩

theorem analyze_covers_sample :
    sampleWorkspace.tree.WellFormed ∧ (∀ rule ∈ sampleAnalyzer.rules, rule.ReportsRelatively) ∧
      ∃ report, sampleAnalyzer.analyze sampleWorkspace = .ok report ∧
        report.violations.map (fun violation => violation.location.line) = [1, 2] ∧
        ∃ files, sampleAnalyzer.discover sampleWorkspace = .ok files ∧
          sampleAnalyzer.Covers sampleWorkspace files report ∧
          report.violations.Pairwise StrictlyBefore := by
  have relative : ∀ rule ∈ sampleAnalyzer.rules, rule.ReportsRelatively := by
    intro rule member
    obtain rfl := List.mem_singleton.mp member
    exact TrailingSpaces.reportsRelatively_rule {}
  have succeeded : sampleAnalyzer.analyze sampleWorkspace = .ok ⟨[
      TrailingSpaces.violationAt {} ⟨⟨["a"]⟩, 1, 1, 0, 1⟩,
      TrailingSpaces.violationAt {} ⟨⟨["a"]⟩, 2, 2, 3, 1⟩], 1⟩ := by cbv
  obtain ⟨files, discovered, covers, strictly⟩ :=
    sampleAnalyzer.analyze_covers_found_texts wellFormed_sampleWorkspace relative succeeded
  exact ⟨wellFormed_sampleWorkspace, relative, _, succeeded, rfl, files, discovered, covers,
    (strictly {} rfl).1⟩

end TidyLines.Analyzer
