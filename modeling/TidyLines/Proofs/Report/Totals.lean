import Mathlib.Algebra.BigOperators.Group.List.Basic
import TidyLines.Report

/-!
# Totals of a report

The numbers of a report are counted in one pass over its violations, which adds one number for each
of them (`LintReport.counts_eq_sum`).  Tests of a report against a threshold can be read off the
numbers (`LintReport.hasViolationsAt_iff`).  A report that is put together from violations and other
reports (`Assembly`) depends on these parts alone, and its numbers are their sums.
-/

namespace TidyLines

/-! ## Numbers by severity -/

namespace SeverityCounts

variable (first second counts : SeverityCounts)

instance : Zero SeverityCounts := ⟨{}⟩

instance : Add SeverityCounts where
  add first second := {
    errors := first.errors + second.errors
    warnings := first.warnings + second.warnings
    infos := first.infos + second.infos }

@[simp] theorem errors_zero : (0 : SeverityCounts).errors = 0 := rfl

@[simp] theorem warnings_zero : (0 : SeverityCounts).warnings = 0 := rfl

@[simp] theorem infos_zero : (0 : SeverityCounts).infos = 0 := rfl

@[simp] theorem errors_add : (first + second).errors = first.errors + second.errors := rfl

@[simp] theorem warnings_add : (first + second).warnings = first.warnings + second.warnings := rfl

@[simp] theorem infos_add : (first + second).infos = first.infos + second.infos := rfl

/-- Numbers are added severity by severity. -/
instance : AddCommMonoid SeverityCounts where
  add_assoc _ _ _ := by ext <;> simp [Nat.add_assoc]
  zero_add _ := by ext <;> simp
  add_zero _ := by ext <;> simp
  add_comm _ _ := by ext <;> simp [Nat.add_comm]
  nsmul := nsmulRec

/-- The numbers for one violation of a severity. -/
def one : Severity → SeverityCounts
  | .error => { errors := 1 }
  | .warning => { warnings := 1 }
  | .info => { infos := 1 }

theorem tally_eq_add (violation : Violation) :
    counts.tally violation = counts + one violation.severity := by
  rw [tally]
  cases violation.severity <;> rfl

/-- The number of violations that are at least this serious. -/
def atLeast (counts : SeverityCounts) : Severity → Nat
  | .error => counts.errors
  | .warning => counts.errors + counts.warnings
  | .info => counts.errors + counts.warnings + counts.infos

@[simp]
theorem atLeast_zero (severity : Severity) : atLeast 0 severity = 0 := by
  cases severity <;> rfl

@[simp]
theorem atLeast_add (severity : Severity) :
    (first + second).atLeast severity = first.atLeast severity + second.atLeast severity := by
  cases severity <;> simp only [atLeast, errors_add, warnings_add, infos_add] <;> omega

theorem atLeast_one (given severity : Severity) :
    (one given).atLeast severity = if severity ≤ given then 1 else 0 := by
  cases given <;> cases severity <;> rfl

/-- Fewer violations are at least as serious as a higher severity. -/
theorem atLeast_le_of_le {lower upper : Severity} (le : lower ≤ upper) :
    counts.atLeast upper ≤ counts.atLeast lower := by
  have ranks : lower.rank ≤ upper.rank := le
  cases lower <;> cases upper <;> simp only [atLeast, Severity.rank] at ranks ⊢ <;> omega

end SeverityCounts

/-! ## Numbers and tests of a report -/

namespace LintReport

variable (report first second third : LintReport)

theorem foldl_tally_eq (start : SeverityCounts) (violations : List Violation) :
    violations.foldl SeverityCounts.tally start =
      start + (violations.map fun violation => SeverityCounts.one violation.severity).sum := by
  induction violations generalizing start with
  | nil => exact (add_zero start).symm
  | cons violation violations ih =>
      rw [List.foldl_cons, ih, SeverityCounts.tally_eq_add, List.map_cons, List.sum_cons, add_assoc]

theorem counts_eq_sum : report.counts =
    (report.violations.map fun violation => SeverityCounts.one violation.severity).sum := by
  rw [counts, foldl_tally_eq]
  exact zero_add _

/-- The numbers say how many violations are at least as serious as each severity. -/
theorem atLeast_counts (severity : Severity) : report.counts.atLeast severity =
    report.violations.countP fun violation => severity ≤ violation.severity := by
  rw [counts_eq_sum]
  induction report.violations with
  | nil => exact SeverityCounts.atLeast_zero severity
  | cons violation violations ih =>
      rw [List.map_cons, List.sum_cons, SeverityCounts.atLeast_add, ih, List.countP_cons,
        SeverityCounts.atLeast_one, Nat.add_comm]
      simp only [decide_eq_true_eq]

theorem hasViolationsAt_iff (severity : Severity) :
    report.hasViolationsAt severity = true ↔ 0 < report.counts.atLeast severity := by
  rw [atLeast_counts, List.countP_pos_iff, hasViolationsAt, List.any_eq_true]

theorem atLeast_info : report.counts.atLeast .info = report.violations.length := by
  rw [atLeast_counts, List.countP_eq_length]
  intro violation _
  exact decide_eq_true (Nat.zero_le violation.severity.rank)

/-- The numbers of a report are in step with its violations and tests. -/
structure InStep : Prop where
  total : report.counts.errors + report.counts.warnings + report.counts.infos =
    report.violations.length
  error_iff : report.hasViolationsAt .error = true ↔ 0 < report.counts.errors
  warning_iff : report.hasViolationsAt .warning = true ↔
    0 < report.counts.errors + report.counts.warnings
  info_iff : report.hasViolationsAt .info = true ↔
    0 < report.counts.errors + report.counts.warnings + report.counts.infos
  lower : ∀ lower upper : Severity, lower ≤ upper → report.hasViolationsAt upper = true →
    report.hasViolationsAt lower = true

theorem inStep : report.InStep where
  total := report.atLeast_info
  error_iff := report.hasViolationsAt_iff .error
  warning_iff := report.hasViolationsAt_iff .warning
  info_iff := report.hasViolationsAt_iff .info
  lower lower upper le fails := by
    rw [hasViolationsAt_iff] at fails ⊢
    exact Nat.lt_of_lt_of_le fails (report.counts.atLeast_le_of_le le)

theorem counts_extend : (first.extend second).counts = first.counts + second.counts := by
  simp only [counts_eq_sum, extend, List.map_append, List.sum_append]

theorem hasViolationsAt_extend (severity : Severity) :
    (first.extend second).hasViolationsAt severity =
      (first.hasViolationsAt severity || second.hasViolationsAt severity) := by
  rw [hasViolationsAt, extend, List.any_append]
  rfl

theorem extend_assoc :
    (first.extend second).extend third = first.extend (second.extend third) := by
  simp only [extend, List.append_assoc, Nat.add_assoc]

theorem empty_extend : LintReport.extend {} report = report := by
  simp only [extend, List.nil_append, Nat.zero_add]

theorem extend_empty : report.extend {} = report := by
  simp only [extend, List.append_nil, Nat.add_zero]

/-- Extending a report adds the numbers up and takes either verdict, in whatever order the steps are
grouped. -/
structure AddsUp : Prop where
  errors : (first.extend second).counts.errors = first.counts.errors + second.counts.errors
  warnings : (first.extend second).counts.warnings =
    first.counts.warnings + second.counts.warnings
  infos : (first.extend second).counts.infos = first.counts.infos + second.counts.infos
  filesChecked : (first.extend second).filesChecked = first.filesChecked + second.filesChecked
  verdict : ∀ severity, (first.extend second).hasViolationsAt severity =
    (first.hasViolationsAt severity || second.hasViolationsAt severity)
  assoc : ∀ third, (first.extend second).extend third = first.extend (second.extend third)

theorem addsUp : first.AddsUp second where
  errors := by rw [counts_extend, SeverityCounts.errors_add]
  warnings := by rw [counts_extend, SeverityCounts.warnings_add]
  infos := by rw [counts_extend, SeverityCounts.infos_add]
  filesChecked := rfl
  verdict := first.hasViolationsAt_extend second
  assoc := first.extend_assoc second

/-- Two reports with the same numbers and verdicts. -/
structure SameTotals : Prop where
  counts_eq : first.counts = second.counts
  filesChecked_eq : first.filesChecked = second.filesChecked
  verdict_eq : ∀ severity, first.hasViolationsAt severity = second.hasViolationsAt severity

variable {first second} in
theorem sameTotals_of_eq (countsEq : first.counts = second.counts)
    (filesEq : first.filesChecked = second.filesChecked) : first.SameTotals second where
  counts_eq := countsEq
  filesChecked_eq := filesEq
  verdict_eq severity := by
    rw [Bool.eq_iff_iff, hasViolationsAt_iff, hasViolationsAt_iff, countsEq]

/-- Reports put one behind the other. -/
def concat (reports : List LintReport) : LintReport := reports.foldl extend {}

theorem concat_singleton : concat [report] = report := report.empty_extend

theorem foldl_extend (reports : List LintReport) :
    reports.foldl extend report = report.extend (concat reports) := by
  induction reports generalizing report with
  | nil => exact report.extend_empty.symm
  | cons next reports ih =>
      rw [concat, List.foldl_cons, List.foldl_cons, ih, ih, empty_extend, extend_assoc]

theorem concat_append (reports others : List LintReport) :
    concat (reports ++ others) = (concat reports).extend (concat others) := by
  rw [concat, List.foldl_append, foldl_extend]
  rfl

theorem concat_cons (reports : List LintReport) :
    concat (report :: reports) = report.extend (concat reports) := by
  rw [concat, List.foldl_cons, empty_extend, foldl_extend]

/-- What adds up when reports are extended is the sum over all reports put together. -/
theorem measure_concat {Total : Type} [AddMonoid Total] {measure : LintReport → Total}
    (empty : measure {} = 0)
    (adds : ∀ first second, measure (first.extend second) = measure first + measure second)
    (reports : List LintReport) : measure (concat reports) = (reports.map measure).sum := by
  induction reports with
  | nil => exact empty
  | cons report reports ih => rw [concat_cons, adds, ih, List.map_cons, List.sum_cons]

theorem sameTotals_concat {reports others : List LintReport} (perm : reports.Perm others) :
    (concat reports).SameTotals (concat others) := by
  apply sameTotals_of_eq
  · rw [measure_concat rfl counts_extend, measure_concat rfl counts_extend,
      (perm.map counts).sum_eq]
  · have adds : ∀ first second : LintReport,
        (first.extend second).filesChecked = first.filesChecked + second.filesChecked :=
      fun _ _ => rfl
    rw [measure_concat rfl adds, measure_concat rfl adds, (perm.map filesChecked).sum_eq]

end LintReport

/-! ## Putting reports together -/

/-- How a report is put together: from parts, by adding violations and other such reports. -/
inductive Assembly where
  | part (report : LintReport)
  | push (assembly : Assembly) (violation : Violation)
  | extend (assembly other : Assembly)

namespace Assembly

/-- The report that is put together. -/
def report : Assembly → LintReport
  | part report => report
  | push assembly violation => assembly.report.push violation
  | extend assembly other => assembly.report.extend other.report

/-- The parts in their order, each violation that is added being a part of its own. -/
def parts : Assembly → List LintReport
  | part report => [report]
  | push assembly violation => assembly.parts ++ [{ violations := [violation] }]
  | extend assembly other => assembly.parts ++ other.parts

/-- It does not matter how the parts are grouped. -/
theorem report_eq_concat (assembly : Assembly) :
    assembly.report = LintReport.concat assembly.parts := by
  induction assembly with
  | part report => exact report.concat_singleton.symm
  | push assembly violation ih =>
      rw [report, parts, LintReport.concat_append, LintReport.concat_singleton, ← ih]
      rfl
  | extend assembly other ih otherIh =>
      rw [report, parts, LintReport.concat_append, ih, otherIh]

theorem sameTotals_of_perm {assembly other : Assembly} (perm : assembly.parts.Perm other.parts) :
    assembly.report.SameTotals other.report := by
  rw [report_eq_concat, report_eq_concat]
  exact LintReport.sameTotals_concat perm

end Assembly

end TidyLines
