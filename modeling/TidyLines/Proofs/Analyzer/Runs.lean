import Mathlib
import TidyLines.Proofs.Analyzer.Loops
import TidyLines.Proofs.Discovery.Stability
import TidyLines.TrailingSpaces

/-!
# Whole runs

Linting and formatting find the same files and fail at the same ones (`Analyzer.readable`).  What
they report is a function of these files (`Analyzer.analyze_eq`, `Analyzer.format_snd_eq`), and so
is the tree that writing leaves (`Analyzer.format_write_fst`).

The whole library is imported for the sample runs, which stand here and in the files that import
this one: they are evaluated by the equations of functions from all over the library.
-/

namespace TidyLines

namespace Analyzer

variable (analyzer : Analyzer)

/-- The path under which a found file is reported. -/
def reportedPath (workspace : Workspace) (file : FoundFile) : Path :=
  (analyzer.baseDirectory workspace).relativeTo file.path

/-- The files that are found, provided that none of them fails the run. -/
def readable (workspace : Workspace) : Except AnalysisError (List FoundFile) := do
  let files ← analyzer.discover workspace
  match analyzer.refused? workspace.directory workspace.tree files with
  | some error => .error error
  | none => .ok files

/-- All files that are found can be read under their paths. -/
def OpensFound (workspace : Workspace) : Prop :=
  ∀ files, analyzer.discover workspace = .ok files → ∀ file ∈ files, workspace.CanRead file.path

/-- The violations in all texts, file by file. -/
def allViolations (workspace : Workspace) (files : List FoundFile) : List Violation :=
  (checked files).flatMap fun entry =>
    analyzer.lint (sourceOf (analyzer.baseDirectory workspace) entry.1 entry.2)

/-- The changes of all texts that have to be mended, file by file. -/
def allChanges (workspace : Workspace) (files : List FoundFile) : List FileChange :=
  (checked files).filterMap (analyzer.changeOf (analyzer.baseDirectory workspace))

variable {workspace : Workspace} {files : List FoundFile}

/-! ## The files of a run -/

theorem discover_eq_ok_iff :
    analyzer.discover workspace = .ok files ↔ analyzer.search.find workspace = .ok files := by
  rw [discover]
  cases analyzer.search.find workspace <;> simp [Except.mapError]

theorem exists_walk_of_discover {error : AnalysisError}
    (failed : analyzer.discover workspace = .error error) : ∃ reason, error = .walk reason := by
  rw [discover] at failed
  cases searched : analyzer.search.find workspace with
  | ok files => simp [searched, Except.mapError] at failed
  | error reason => exact ⟨reason, by simpa [searched, Except.mapError] using failed.symm⟩

theorem readable_eq_ok_iff :
    analyzer.readable workspace = .ok files ↔ analyzer.discover workspace = .ok files ∧
      analyzer.refused? workspace.directory workspace.tree files = none := by
  rw [readable, bind_eq_ok_iff]
  constructor
  · rintro ⟨others, found, goesOn⟩
    split at goesOn
    next => cases goesOn
    next nothing =>
      obtain rfl := Except.ok.inj goesOn
      exact ⟨found, nothing⟩
  · rintro ⟨found, nothing⟩
    exact ⟨files, found, by rw [nothing]⟩

theorem readable_of_refused (found : analyzer.discover workspace = .ok files)
    {error : AnalysisError}
    (stops : analyzer.refused? workspace.directory workspace.tree files = some error) :
    analyzer.readable workspace = .error error := by
  rw [readable, found]
  simp only [bind, Except.bind, stops]

theorem opens_of_discover (wellFormed : workspace.tree.WellFormed)
    (found : analyzer.discover workspace = .ok files) :
    workspace.tree.Opens workspace.directory files :=
  Search.opens_find wellFormed (analyzer.discover_eq_ok_iff.mp found)

/-- A file that does not fail the run leads to itself, and is a text if it has to be one. -/
theorem resolve_of_readable (wellFormed : workspace.tree.WellFormed)
    (read : analyzer.readable workspace = .ok files) {file : FoundFile} (member : file ∈ files) :
    workspace.tree.resolve workspace.directory file.path = .ok file.address ∧
      (analyzer.failOnUndecodable = true → (Text.decode? file.bytes).isSome = true) := by
  obtain ⟨found, goesOn⟩ := analyzer.readable_eq_ok_iff.mp read
  exact (analyzer.refusal?_eq_none_iff (analyzer.opens_of_discover wellFormed found) member).mp
    ((analyzer.refused?_eq_none_iff).mp goesOn file member)

theorem opensFound_of_readable (wellFormed : workspace.tree.WellFormed)
    (read : analyzer.readable workspace = .ok files) : analyzer.OpensFound workspace := by
  intro others found file member
  have discovered := (analyzer.readable_eq_ok_iff.mp read).1
  obtain rfl := Except.ok.inj (discovered.symm.trans found)
  exact ((analyzer.opens_of_discover wellFormed found).canRead_iff member).mpr
    (analyzer.resolve_of_readable wellFormed read member).1

theorem holds_of_discover (wellFormed : workspace.tree.WellFormed)
    (found : analyzer.discover workspace = .ok files) : workspace.tree.Holds files :=
  analyzer.search.holds_find wellFormed (analyzer.discover_eq_ok_iff.mp found)

theorem baseDirectory_eq_root (walks : workspace.isFile analyzer.root = false) :
    analyzer.baseDirectory workspace = analyzer.root := by
  rw [baseDirectory, walks, if_neg Bool.false_ne_true]

/-- A file below the root is reported under the names that lead to it. -/
theorem reportedPath_of_reaches (walks : workspace.isFile analyzer.root = false) {root : Address}
    {names : List String} {file : FoundFile} (reaches : analyzer.search.Reaches root names file) :
    analyzer.reportedPath workspace file = ⟨names⟩ := by
  rw [reportedPath, analyzer.baseDirectory_eq_root walks]
  exact reaches.relativeTo_eq

/-- No two of the files found are reported at the same place in the order of paths. -/
theorem pairwise_order_reportedPath_ne (wellFormed : workspace.tree.WellFormed)
    (found : analyzer.discover workspace = .ok files) :
    files.Pairwise fun first second =>
      (analyzer.reportedPath workspace first).order (analyzer.reportedPath workspace second) ≠
        .eq := by
  rcases analyzer.search.find_cases (analyzer.discover_eq_ok_iff.mp found) with
    ⟨-, address, bytes, -, rfl, -⟩ | ⟨noFile, root, -, rfl⟩
  · exact List.pairwise_singleton _ _
  · simp only [reportedPath, analyzer.baseDirectory_eq_root noFile]
    exact analyzer.search.pairwise_order_ne_filesBelow wellFormed root

theorem nodup_map_reportedPath (wellFormed : workspace.tree.WellFormed)
    (found : analyzer.discover workspace = .ok files) :
    (files.map (analyzer.reportedPath workspace)).Nodup := by
  rw [List.Nodup, List.pairwise_map]
  refine (analyzer.pairwise_order_reportedPath_ne wellFormed found).imp ?_
  intro first second apart same
  exact apart (by rw [same]; exact Std.ReflCmp.compare_self)

/-! ## Changes -/

theorem mem_allChanges {change : FileChange} :
    change ∈ analyzer.allChanges workspace files ↔ ∃ file text, (file, text) ∈ checked files ∧
      (analyzer.fix file.path text).1 ≠ text ∧
      change = ⟨analyzer.reportedPath workspace file, (analyzer.fix file.path text).2⟩ := by
  rw [allChanges, List.mem_filterMap, Prod.exists]
  simp only [changeOf_eq_some_iff]
  rfl

theorem map_file_allChanges :
    (analyzer.allChanges workspace files).map FileChange.file =
      (((checked files).filter fun entry =>
        (analyzer.fix entry.1.path entry.2).1 ≠ entry.2).map Prod.fst).map
          (analyzer.reportedPath workspace) := by
  rw [allChanges, map_file_filterMap_changeOf, List.map_map]
  rfl

theorem nodup_map_file_allChanges (wellFormed : workspace.tree.WellFormed)
    (found : analyzer.discover workspace = .ok files) :
    ((analyzer.allChanges workspace files).map FileChange.file).Nodup := by
  have apart := analyzer.nodup_map_reportedPath wellFormed found
  rw [map_file_allChanges, map_fst_filter_checked]
  exact apart.sublist (List.filter_sublist.map _)

/-! ## What is reported and written -/

theorem analyze_eq (wellFormed : workspace.tree.WellFormed) :
    analyzer.analyze workspace = (analyzer.readable workspace).map fun files => {
      violations := (analyzer.allViolations workspace files).mergeSort inOrder
      filesChecked := (checked files).length } := by
  rw [analyze, readable]
  cases found : analyzer.discover workspace with
  | error error => rfl
  | ok files =>
      have opens := analyzer.opens_of_discover wellFormed found
      simp only [bind, Except.bind, analyzer.lintFiles_eq _ opens]
      cases analyzer.refused? workspace.directory workspace.tree files <;> rfl

theorem format_snd_eq (wellFormed : workspace.tree.WellFormed) (mode : Mode) :
    (analyzer.format mode workspace).2 = (analyzer.readable workspace).map fun files => {
      changed := analyzer.allChanges workspace files
      filesChecked := (checked files).length } := by
  rw [format, readable]
  cases found : analyzer.discover workspace with
  | error error => rfl
  | ok files =>
      have opens := analyzer.opens_of_discover wellFormed found
      simp only [bind, Except.bind, analyzer.formatFiles_eq mode _ _ wellFormed opens]
      cases analyzer.refused? workspace.directory workspace.tree files <;>
        simp [Except.map, allChanges]

theorem format_dryRun_fst (workspace : Workspace) :
    (analyzer.format .dryRun workspace).1 = workspace.tree := by
  rw [format]
  split
  · rfl
  · exact analyzer.formatFiles_dryRun_fst _ _ _ _ _

/-- A run that writes mends the files that are found up to the one at which it stops. -/
theorem format_write_fst_of_discover (wellFormed : workspace.tree.WellFormed)
    (found : analyzer.discover workspace = .ok files) :
    (analyzer.format .write workspace).1 =
      workspace.tree.rewrite (analyzer.mending
        (analyzer.reached workspace.directory workspace.tree files)) := by
  have opens := analyzer.opens_of_discover wellFormed found
  rw [format, found]
  dsimp only
  rw [analyzer.formatFiles_eq .write _ _ wellFormed opens]
  rfl

/-- A run that writes and does not fail mends the files that are found. -/
theorem format_write_fst (wellFormed : workspace.tree.WellFormed)
    (read : analyzer.readable workspace = .ok files) :
    (analyzer.format .write workspace).1 =
      workspace.tree.rewrite (analyzer.mending files) := by
  obtain ⟨found, goesOn⟩ := analyzer.readable_eq_ok_iff.mp read
  rw [analyzer.format_write_fst_of_discover wellFormed found, analyzer.reached_eq_self goesOn]

theorem exists_of_analyze_ok (wellFormed : workspace.tree.WellFormed) {report : LintReport}
    (succeeded : analyzer.analyze workspace = .ok report) :
    ∃ files, analyzer.readable workspace = .ok files ∧
      report = ⟨(analyzer.allViolations workspace files).mergeSort inOrder,
        (checked files).length⟩ := by
  rw [analyzer.analyze_eq wellFormed] at succeeded
  cases read : analyzer.readable workspace with
  | error error => simp [read, Except.map] at succeeded
  | ok files =>
      rw [read] at succeeded
      exact ⟨files, rfl, (Except.ok.inj succeeded).symm⟩

theorem exists_of_format_ok (wellFormed : workspace.tree.WellFormed) {mode : Mode}
    {report : FormatReport} (succeeded : (analyzer.format mode workspace).2 = .ok report) :
    ∃ files, analyzer.readable workspace = .ok files ∧
      report = ⟨analyzer.allChanges workspace files, (checked files).length⟩ := by
  rw [analyzer.format_snd_eq wellFormed] at succeeded
  cases read : analyzer.readable workspace with
  | error error => simp [read, Except.map] at succeeded
  | ok files =>
      rw [read] at succeeded
      exact ⟨files, rfl, (Except.ok.inj succeeded).symm⟩

/-! ## A project of two files -/

/-- A directory with a text to mend and a file that is no text, and outside of it an ignore file and
another text. -/
def sampleWorkspace : Workspace where
  tree := ⟨[
    ([".ignore"], .file (Text.encode ['#', '\n'])),
    (["p"], .directory),
    (["p", "a"], .file (Text.encode [' ', '\n', 'x', ' '])),
    (["p", "b"], .file ⟨#[0xff]⟩),
    (["q"], .file (Text.encode [' ']))]⟩
  directory := ["p"]

/-- An analyzer of the directory. -/
def sampleAnalyzer : Analyzer where
  search := { root := ⟨["", "p"]⟩, excluded := [], included := [], respectIgnoreFiles := false }
  rules := [TrailingSpaces.rule {}]
  config := {}
  failOnUndecodable := false

/-- The analyzer of the directory, failed by files that are no texts. -/
def strictAnalyzer : Analyzer := { sampleAnalyzer with failOnUndecodable := true }

theorem wellFormed_sampleWorkspace : sampleWorkspace.tree.WellFormed := by
  decide +kernel

/-- An ignore file of the directory has the name of one. -/
theorem getLast?_of_consults_sample {address : Address}
    (consulted : sampleAnalyzer.search.Consults sampleWorkspace address) :
    address.getLast? = some ".ignore" := by
  have asName : Ignore.Kind.plain.path = ⟨[".ignore"]⟩ := by decide +kernel
  have noLink : ∀ place target, sampleWorkspace.tree.get? place ≠ some (.link target) := by
    intro place target isLink
    simp only [FileTree.get?, sampleWorkspace, List.lookup_cons, List.lookup_nil] at isLink
    repeat' split at isLink
    all_goals cases isLink
  have named : ∀ directory,
      sampleWorkspace.tree.resolve directory Ignore.Kind.plain.path = .ok address →
        address.getLast? = some ".ignore" := by
    intro directory leads
    rw [asName] at leads
    rw [FileTree.eq_of_resolve_name (by decide +kernel) (noLink _) leads]
    exact List.getLast?_concat
  cases consulted with
  | above count _ _ counts found =>
      obtain rfl := List.mem_singleton.mp counts
      exact named _ found
  | below _ _ _ counts found =>
      obtain rfl := List.mem_singleton.mp counts
      exact named _ found
  | user _ respected => cases respected

end Analyzer
end TidyLines
