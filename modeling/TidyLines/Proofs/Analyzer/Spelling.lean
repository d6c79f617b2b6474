import TidyLines.Proofs.Analyzer.Runs
import TidyLines.Proofs.Discovery.Spelling
import TidyLines.Proofs.Rule.Locality

/-!
# Runs with two spellings of one root

Files that are found under another spelling of the root are reported under the same relative paths,
and rules that do not look at spellings find the same in them.  So the reports are the same
(`Analyzer.analyze_respell`, `Analyzer.format_respell`), and a run that fails names the same file,
spelled with its own root.
-/

namespace TidyLines

/-- Two results are related, or they are the same failure up to the spelling of a path. -/
inductive AlikeResults {Value Other : Type} (Related : Value → Other → Prop) :
    Except AnalysisError Value → Except AnalysisError Other → Prop where
  | ok {value : Value} {other : Other} (related : Related value other) :
    AlikeResults Related (.ok value) (.ok other)
  | io (fault : Fault) : AlikeResults Related (.error (.io fault)) (.error (.io fault))
  | walk (reason : String) : AlikeResults Related (.error (.walk reason)) (.error (.walk reason))
  | undecodable {path other : Path} (sameComponents : path.components = other.components) :
    AlikeResults Related (.error (.undecodable path)) (.error (.undecodable other))

theorem AlikeResults.map {Value Other Report : Type} {Related : Value → Other → Prop}
    {first : Except AnalysisError Value} {second : Except AnalysisError Other}
    (alike : AlikeResults Related first second) {report : Value → Report}
    {otherReport : Other → Report}
    (same : ∀ value other, Related value other → report value = otherReport other) :
    AlikeResults Eq (first.map report) (second.map otherReport) := by
  cases alike with
  | ok related => exact .ok (same _ _ related)
  | io fault => exact .io fault
  | walk reason => exact .walk reason
  | undecodable sameComponents => exact .undecodable sameComponents

namespace Analyzer

variable {analyzer : Analyzer} {other : Search} {workspace : Workspace} {root : Address}
  {files : List FoundFile} (respells : analyzer.search.Respells other workspace root)

theorem checked_map_respell (files : List FoundFile) :
    checked (files.map (other.respell root)) =
      (checked files).map fun entry => (other.respell root entry.1, entry.2) := by
  rw [checked, checked, List.filterMap_map, List.map_filterMap]
  apply List.filterMap_congr
  intro file _
  simp [Search.respell, Option.map_map, Function.comp_def]

include respells

/-- A file is refused in both spellings or in none. -/
theorem refusal?_respell (wellFormed : workspace.tree.WellFormed)
    (found : analyzer.search.find workspace = .ok files) {file : FoundFile}
    (member : file ∈ files) :
    { analyzer with search := other }.refusal? workspace.directory workspace.tree
        (other.respell root file) =
      match workspace.tree.resolve workspace.directory file.path with
      | .error fault => some (.io fault)
      | .ok _ =>
        if analyzer.failOnUndecodable && (Text.decode? file.bytes).isNone then
          some (.undecodable (other.respell root file).path)
        else none := by
  have otherFound : other.find workspace = .ok (files.map (other.respell root)) := by
    rw [respells.find_eq wellFormed, found]
    rfl
  rw [refusal?_eq _ (Search.opens_find wellFormed otherFound) (List.mem_map_of_mem member),
    respells.resolve_eq wellFormed found member]
  rfl

/-- The first file that is refused is the same in both spellings. -/
theorem alike_refused (wellFormed : workspace.tree.WellFormed)
    (found : analyzer.search.find workspace = .ok files) {part : List FoundFile}
    (within : part ⊆ files) {Value Other : Type} {Related : Value → Other → Prop} {value : Value}
    {otherValue : Other} (related : Related value otherValue) :
    AlikeResults Related
      (match analyzer.refused? workspace.directory workspace.tree part with
        | some error => .error error
        | none => .ok value)
      (match { analyzer with search := other }.refused? workspace.directory workspace.tree
          (part.map (other.respell root)) with
        | some error => .error error
        | none => .ok otherValue) := by
  induction part with
  | nil => exact .ok related
  | cons file others ih =>
      obtain ⟨member, othersWithin⟩ := List.cons_subset.mp within
      rw [refused?, refused?, List.map_cons, List.findSome?_cons, List.findSome?_cons,
        refusal?_respell respells wellFormed found member,
        analyzer.refusal?_eq (Search.opens_find wellFormed found) member]
      cases workspace.tree.resolve workspace.directory file.path with
      | error fault => exact .io fault
      | ok address =>
          dsimp only
          by_cases refuses : (analyzer.failOnUndecodable && (Text.decode? file.bytes).isNone) = true
          · obtain ⟨names, reaches⟩ := respells.exists_reaches_of_find wellFormed found member
            rw [if_pos refuses, if_pos refuses]
            exact .undecodable (respells.components_path_eq reaches).symm
          · rw [if_neg refuses, if_neg refuses]
            exact ih othersWithin

theorem alike_readable (wellFormed : workspace.tree.WellFormed) :
    AlikeResults (fun files others => analyzer.search.find workspace = .ok files ∧
        others = files.map (other.respell root))
      (analyzer.readable workspace) ({ analyzer with search := other }.readable workspace) := by
  rw [readable, readable, discover, discover, respells.find_eq wellFormed]
  cases found : analyzer.search.find workspace with
  | error reason => exact .walk reason
  | ok files => exact alike_refused respells wellFormed found (List.Subset.refl files) ⟨rfl, rfl⟩

/-- Files are reported under the names that lead to them from the root. -/
theorem relativeTo_baseDirectory {names : List String} {file : FoundFile}
    (reaches : analyzer.search.Reaches root names file) :
    (analyzer.baseDirectory workspace).relativeTo file.path = ⟨names⟩ := by
  have walks := Workspace.isFile_of_isDirectoryAt respells.leads respells.isDirectory
  exact analyzer.reportedPath_of_reaches walks reaches

theorem relativeTo_baseDirectory_respell {names : List String} {file : FoundFile}
    (reaches : analyzer.search.Reaches root names file) :
    ({ analyzer with search := other }.baseDirectory workspace).relativeTo
      (other.respell root file).path = ⟨names⟩ := by
  have walks := Workspace.isFile_of_isDirectoryAt respells.other_leads respells.isDirectory
  exact reportedPath_of_reaches _ walks reaches.respell

section Files

variable (rules : ∀ rule ∈ analyzer.rules, rule.IgnoresSpelling)
  (reached : ∀ file ∈ files, ∃ names, analyzer.search.Reaches root names file)

include rules reached

theorem allViolations_respell :
    { analyzer with search := other }.allViolations workspace
        (files.map (other.respell root)) =
      analyzer.allViolations workspace files := by
  rw [allViolations, allViolations, checked_map_respell, List.flatMap_map]
  apply List.flatMap_congr
  rintro ⟨file, text⟩ isChecked
  obtain ⟨names, reaches⟩ := reached file (mem_checked.mp isChecked).1
  apply List.flatMap_congr
  intro rule enabled
  have listed : rule ∈ analyzer.rules := (List.mem_filter.mp enabled).1
  refine congrArg (analyzer.withSeverity rule) ((rules rule listed).check_eq _ _ rfl ?_ ?_)
  · exact (relativeTo_baseDirectory_respell respells reaches).trans
      (relativeTo_baseDirectory respells reaches).symm
  · exact respells.components_path_eq reaches

theorem fix_respell {file : FoundFile} (member : file ∈ files) (text : Text) :
    analyzer.fix (other.respell root file).path text = analyzer.fix file.path text := by
  obtain ⟨names, reaches⟩ := reached file member
  have sameComponents := respells.components_path_eq reaches
  rw [fix, fix]
  apply List.foldl_ext
  intro state rule fixable
  have listed : rule ∈ analyzer.rules :=
    (List.mem_filter.mp (List.mem_filter.mp fixable).1).1
  rw [fixStep, fixStep,
    (rules rule listed).length_check_eq (.named (other.respell root file).path state.1)
      (.named file.path state.1) rfl sameComponents sameComponents,
    (rules rule listed).fix_eq (.named (other.respell root file).path state.1)
      (.named file.path state.1) rfl sameComponents sameComponents]

theorem allChanges_respell :
    { analyzer with search := other }.allChanges workspace (files.map (other.respell root)) =
      analyzer.allChanges workspace files := by
  rw [allChanges, allChanges, checked_map_respell, List.filterMap_map]
  apply List.filterMap_congr
  rintro ⟨file, text⟩ isChecked
  have member := (mem_checked.mp isChecked).1
  obtain ⟨names, reaches⟩ := reached file member
  have sameFix : { analyzer with search := other }.fix (other.respell root file).path text =
      analyzer.fix file.path text := fix_respell respells rules reached member text
  have samePath :
      (sourceOf ({ analyzer with search := other }.baseDirectory workspace)
        (other.respell root file) text).relativePath =
      (sourceOf (analyzer.baseDirectory workspace) file text).relativePath :=
    (relativeTo_baseDirectory_respell respells reaches).trans
      (relativeTo_baseDirectory respells reaches).symm
  rw [Function.comp_apply, changeOf, changeOf, sameFix, samePath]

end Files

/-- Linting reports the same under another spelling of the root. -/
theorem analyze_respell (wellFormed : workspace.tree.WellFormed)
    (rules : ∀ rule ∈ analyzer.rules, rule.IgnoresSpelling) :
    AlikeResults Eq (analyzer.analyze workspace)
      ({ analyzer with search := other }.analyze workspace) := by
  rw [analyze_eq _ wellFormed, analyze_eq _ wellFormed]
  refine (alike_readable respells wellFormed).map ?_
  rintro files - ⟨found, rfl⟩
  have reached : ∀ file ∈ files, ∃ names, analyzer.search.Reaches root names file :=
    fun file member => respells.exists_reaches_of_find wellFormed found member
  rw [allViolations_respell respells rules reached, checked_map_respell, List.length_map]

/-- So does formatting. -/
theorem format_respell (wellFormed : workspace.tree.WellFormed)
    (rules : ∀ rule ∈ analyzer.rules, rule.IgnoresSpelling) (mode : Mode) :
    AlikeResults Eq (analyzer.format mode workspace).2
      ({ analyzer with search := other }.format mode workspace).2 := by
  rw [analyzer.format_snd_eq wellFormed, Analyzer.format_snd_eq _ wellFormed]
  refine (alike_readable respells wellFormed).map ?_
  rintro files - ⟨found, rfl⟩
  have reached : ∀ file ∈ files, ∃ names, analyzer.search.Reaches root names file :=
    fun file member => respells.exists_reaches_of_find wellFormed found member
  rw [allChanges_respell respells rules reached, checked_map_respell, List.length_map]

end Analyzer
end TidyLines
