import TidyLines.Proofs.Analyzer.Building
import TidyLines.Proofs.Analyzer.Formatting
import TidyLines.Proofs.Analyzer.Sources

/-!
# One file as a root

A file that a run finds below a directory can be given as a root of its own.  Then nothing is
searched for, and the file is reported under its name alone.  What is found in it, what mending
changes and what is written are the same (`Analyzer.file_alone_agrees`): a report is put together
from what each file yields by itself, and the file as a root yields that again.
-/

namespace TidyLines

/-- The name of what a path leads to, if the last part of the path is a name. -/
def Path.fileName? (path : Path) : Option String :=
  match path.components.getLast? with
  | some (.name text) => some text
  | _ => none

/-- A path that ends in names has a parent, from which it is seen as its file name. -/
theorem Path.exists_parent_join_names (base : Path) {names : List String} (nonempty : names ≠ [])
    (areNames : ∀ name ∈ names, IsName name) :
    ∃ parent name, (base.join ⟨names⟩).parent? = some parent ∧
      (base.join ⟨names⟩).fileName? = some name ∧
        parent.relativeTo (base.join ⟨names⟩) = ⟨[name]⟩ := by
  obtain ⟨above, name, rfl⟩ := (List.eq_nil_or_concat' names).resolve_left nonempty
  obtain ⟨front, -, -, -, joined⟩ := base.exists_front
  have spelling : (base.join ⟨above ++ [name]⟩).segments = (front ++ above) ++ [name] := by
    rw [joined _ areNames, List.append_assoc]
  obtain ⟨parent, parts⟩ := exists_parent spelling (areNames name (by simp))
  refine ⟨parent, name, parts.parent?_eq, ?_, parts.relativeTo_eq⟩
  simp [fileName?, base.components_join nonempty areNames]

namespace Analyzer

variable (analyzer : Analyzer) {workspace : Workspace} {files : List FoundFile} {file : FoundFile}

/-- An analyzer with another root and all else the same. -/
def rootedAt (root : Path) : Analyzer :=
  { analyzer with search := { analyzer.search with root } }

variable {analyzer} in
/-- A plan whose root is exchanged for the path of a file makes the analyzer of the file. -/
theorem build_rootedAt {plan : Plan} {directory path : Path}
    (built : plan.build directory = .ok analyzer) (absolute : path.isAbsolute = true) :
    { plan with root := some path }.build directory = .ok (analyzer.rootedAt path) := by
  obtain ⟨excluded, included, readExcluded, readIncluded, rfl⟩ := Plan.build_eq_ok_iff.mp built
  refine Plan.build_eq_ok_iff.mpr ⟨excluded, included, readExcluded, readIncluded, ?_⟩
  have rootEq : directory.join path = path := by rw [Path.join, if_pos absolute]
  exact congrArg (plan.analyzerWith directory excluded included).rootedAt rootEq.symm

/-! ## What each file yields -/

/-- Of what items yield, labelled by their keys, the part with one key is what its item yields. -/
private theorem filter_flatMap_of_key {Item Key Other : Type} [DecidableEq Key] {items : List Item}
    {key : Item → Key} (apart : (items.map key).Nodup) {item : Item} (member : item ∈ items)
    {yield : Item → List Other} {label : Other → Key}
    (labelled : ∀ item, ∀ other ∈ yield item, label other = key item) :
    ((items.flatMap yield).filter fun other => label other = key item) = yield item := by
  rw [List.filter_flatMap, flatMap_eq_of_key apart member, List.filter_eq_self]
  · intro other yielded
    simpa using labelled item other yielded
  · intro second differs
    rw [List.filter_eq_nil_iff]
    intro other yielded
    simpa [labelled second other yielded] using differs

theorem checked_eq_flatMap (files : List FoundFile) :
    checked files = files.flatMap fun file => checked [file] := by
  induction files with
  | nil => rfl
  | cons file others ih =>
      rw [List.flatMap_cons, ← ih]
      exact checked_append [file] others

theorem eq_of_mem_checked_singleton {entry : FoundFile × Text} (isChecked : entry ∈ checked [file]) :
    entry.1 = file :=
  List.mem_singleton.mp (mem_checked.mp isChecked).1

theorem filter_allViolations_eq (relative : ∀ rule ∈ analyzer.rules, rule.ReportsRelatively)
    (apart : (files.map (analyzer.reportedPath workspace)).Nodup) (member : file ∈ files) :
    ((analyzer.allViolations workspace files).filter fun violation =>
        violation.location.file = analyzer.reportedPath workspace file) =
      analyzer.allViolations workspace [file] := by
  have split : analyzer.allViolations workspace files =
      files.flatMap fun file => analyzer.allViolations workspace [file] := by
    simp only [allViolations]
    rw [checked_eq_flatMap, List.flatMap_assoc]
  rw [split]
  refine filter_flatMap_of_key apart member ?_
  intro other violation reported
  obtain ⟨entry, isChecked, inFile⟩ :=
    analyzer.exists_checked_of_mem_allViolations relative reported
  rw [inFile, eq_of_mem_checked_singleton isChecked]

theorem filter_allChanges_eq (apart : (files.map (analyzer.reportedPath workspace)).Nodup)
    (member : file ∈ files) :
    ((analyzer.allChanges workspace files).filter fun change =>
        change.file = analyzer.reportedPath workspace file) =
      analyzer.allChanges workspace [file] := by
  have split : analyzer.allChanges workspace files =
      files.flatMap fun file => analyzer.allChanges workspace [file] := by
    simp only [allChanges]
    rw [checked_eq_flatMap, List.filterMap_flatMap]
  rw [split]
  refine filter_flatMap_of_key apart member ?_
  intro other change reported
  obtain ⟨found, text, isChecked, -, rfl⟩ := analyzer.mem_allChanges.mp reported
  obtain rfl : found = other := eq_of_mem_checked_singleton isChecked
  rfl

/-! ## The same file under another root -/

section Rooted

variable {analyzer} {root reported : Path}

theorem allViolations_rootedAt (looks : ∀ rule ∈ analyzer.rules, rule.LooksAtText)
    (reportedEq : (analyzer.rootedAt root).reportedPath workspace file = reported) :
    (analyzer.rootedAt root).allViolations workspace [file] =
      (analyzer.allViolations workspace [file]).map (Violation.inFile reported) := by
  rw [allViolations, allViolations, List.map_flatMap]
  apply List.flatMap_congr
  intro entry isChecked
  have same := eq_of_mem_checked_singleton isChecked
  rw [lint, lint, List.map_flatMap]
  apply List.flatMap_congr
  intro rule enabled
  have sameCheck := (looks rule (List.mem_filter.mp enabled).1).check_eq
    (sourceOf (analyzer.baseDirectory workspace) entry.1 entry.2)
    (sourceOf ((analyzer.rootedAt root).baseDirectory workspace) entry.1 entry.2) rfl
  rw [sameCheck, ← reportedEq, ← same]
  change analyzer.withSeverity rule _ = _
  rw [withSeverity, withSeverity]
  split
  · rfl
  · rw [List.map_map, List.map_map]
    rfl

theorem allChanges_rootedAt
    (reportedEq : (analyzer.rootedAt root).reportedPath workspace file = reported) :
    (analyzer.rootedAt root).allChanges workspace [file] =
      (analyzer.allChanges workspace [file]).map fun change =>
        { change with file := reported } := by
  rw [allChanges, allChanges, List.map_filterMap]
  apply List.filterMap_congr
  intro entry isChecked
  have same := eq_of_mem_checked_singleton isChecked
  have sameFix : (analyzer.rootedAt root).fix = analyzer.fix := rfl
  rw [changeOf, changeOf, sameFix]
  split
  · rfl
  · rw [← reportedEq, ← same]
    rfl

/-- The analyzer of a file finds nothing but the file. -/
theorem discover_rootedAt
    (leads : workspace.tree.resolve workspace.directory file.path = .ok file.address)
    (inTree : workspace.tree.get? file.address = some (.file file.bytes)) :
    (analyzer.rootedAt file.path).discover workspace = .ok [file] := by
  have sameRoot : (analyzer.rootedAt file.path).search.root = file.path := rfl
  rw [discover_eq_ok_iff, Search.find, sameRoot, leads]
  dsimp only
  rw [inTree]

/-- The analyzer of a path that leads nowhere fails to find anything. -/
theorem discover_rootedAt_of_error {fault : Fault}
    (leadsNowhere : workspace.tree.resolve workspace.directory file.path = .error fault) :
    (analyzer.rootedAt file.path).discover workspace =
      .error (.walk ((analyzer.rootedAt file.path).search.rootMessage fault)) := by
  have sameRoot : (analyzer.rootedAt file.path).search.root = file.path := rfl
  rw [discover, Search.find, sameRoot, leadsNowhere]
  rfl

/-- The analyzer of a file reports it under its name. -/
theorem exists_reportedPath_rootedAt {root : Address} {names : List String}
    (inTree : workspace.tree.get? file.address = some (.file file.bytes))
    (reaches : analyzer.search.Reaches root names file) :
    ∃ name, file.path.fileName? = some name ∧
      (workspace.tree.resolve workspace.directory file.path = .ok file.address →
        (analyzer.rootedAt file.path).reportedPath workspace file = ⟨[name]⟩) := by
  obtain ⟨parent, name, isParent, isFileName, seen⟩ :=
    analyzer.search.root.exists_parent_join_names reaches.nonempty reaches.are_names
  have pathEq : analyzer.search.root.join ⟨names⟩ = file.path := reaches.path_eq.symm
  rw [pathEq] at isParent isFileName seen
  refine ⟨name, isFileName, fun leads => ?_⟩
  have isFile : workspace.isFile file.path = true :=
    (Workspace.isFile_iff leads).mpr ⟨file.bytes, inTree⟩
  rw [reportedPath, baseDirectory]
  change (if workspace.isFile file.path then file.path.parent?.getD file.path
    else file.path).relativeTo file.path = _
  rw [isFile, if_pos rfl, isParent, Option.getD_some, seen]

end Rooted

/-! ## The two runs -/

theorem refusal?_eq_none_iff_exists {file : FoundFile} :
    analyzer.refusal? workspace.directory workspace.tree file = none ↔
      ∃ read, analyzer.readFile workspace.directory workspace.tree file.path = .ok read := by
  rw [refusal?]
  cases analyzer.readFile workspace.directory workspace.tree file.path <;> simp

/-- A run reaches a file if it fails neither there nor before. -/
theorem mem_reached (wellFormed : workspace.tree.WellFormed)
    (found : analyzer.discover workspace = .ok files) (member : file ∈ files)
    (goesOn : analyzer.refusal? workspace.directory workspace.tree file = none)
    (goesOnBefore : ∀ other ∈ files, other.path.order file.path = .lt →
      analyzer.refusal? workspace.directory workspace.tree other = none) :
    file ∈ analyzer.reached workspace.directory workspace.tree files := by
  cases stops : analyzer.refused? workspace.directory workspace.tree files with
  | none => rwa [analyzer.reached_eq_self stops]
  | some error =>
      obtain ⟨first, firstMember, refuses, behind, split⟩ :=
        analyzer.exists_split_of_refused? stops
      have sorted := analyzer.search.pairwise_order_lt_find wellFormed
        (analyzer.discover_eq_ok_iff.mp found)
      rw [split] at member sorted
      rcases List.mem_append.mp member with isReached | fromFirst
      · exact isReached
      · rcases List.mem_cons.mp fromFirst with rfl | later
        · cases goesOn.symm.trans refuses
        · have before := List.rel_of_pairwise_cons (List.pairwise_append.mp sorted).2.1 later
          cases (goesOnBefore first firstMember before).symm.trans refuses

/-- What a run that succeeds says about a file is what a run with the file as its root says, which
reports it under the given name; and so it is with what a run writes that does not fail before. -/
structure AgreesAlone (workspace : Workspace) (files : List FoundFile) (file : FoundFile)
    (name : String) : Prop where
  analyze_eq : ∀ report, analyzer.analyze workspace = .ok report →
    (analyzer.rootedAt file.path).analyze workspace = .ok {
      violations := (report.violations.filter fun violation =>
        violation.location.file = analyzer.reportedPath workspace file).map
          (Violation.inFile ⟨[name]⟩)
      filesChecked := if (Text.decode? file.bytes).isSome then 1 else 0 }
  dryRun_eq : ∀ report, (analyzer.format .dryRun workspace).2 = .ok report →
    ((analyzer.rootedAt file.path).format .dryRun workspace).2 = .ok {
      changed := (report.changed.filter fun change =>
        change.file = analyzer.reportedPath workspace file).map
          fun change => { change with file := ⟨[name]⟩ }
      filesChecked := if (Text.decode? file.bytes).isSome then 1 else 0 }
  /-- A run that fails earlier does not come to write the file. -/
  write_eq : (∀ other ∈ files, other.path.order file.path = .lt →
      ∃ read, analyzer.readFile workspace.directory workspace.tree other.path = .ok read) →
    ((analyzer.rootedAt file.path).format .write workspace).1.get? file.address =
      (analyzer.format .write workspace).1.get? file.address
  fails_iff : ∀ error, (analyzer.rootedAt file.path).analyze workspace = .error error ↔
    (workspace.CanRead file.path ∧ analyzer.failOnUndecodable = true ∧
      Text.decode? file.bytes = none ∧ error = .undecodable file.path) ∨
    ∃ fault, workspace.tree.resolve workspace.directory file.path = .error fault ∧
      error = .walk ((analyzer.rootedAt file.path).search.rootMessage fault)

/-- Violations of one file stay in their order under another name of the file. -/
theorem map_inFile_mergeSort {violations : List Violation} {path other : Path}
    (inFile : ∀ violation ∈ violations, violation.location.file = path) :
    (violations.mergeSort inOrder).map (Violation.inFile other) =
      (violations.map (Violation.inFile other)).mergeSort inOrder := by
  apply List.map_mergeSort
  intro first firstMember second secondMember
  have sameFile := (inFile first firstMember).trans (inFile second secondMember).symm
  have sameOther : (first.inFile other).location.file = (second.inFile other).location.file := rfl
  rw [inOrder_of_file_eq sameFile, inOrder_of_file_eq sameOther]
  rfl

theorem length_checked_singleton (file : FoundFile) :
    (checked [file]).length = if (Text.decode? file.bytes).isSome then 1 else 0 := by
  rw [length_checked, List.countP_singleton]

theorem refusal?_rootedAt (path : Path) (directory : Address) (tree : FileTree)
    (file : FoundFile) :
    (analyzer.rootedAt path).refusal? directory tree file =
      analyzer.refusal? directory tree file := rfl

theorem readable_rootedAt
    (alone : (analyzer.rootedAt file.path).discover workspace = .ok [file])
    (read : analyzer.readable workspace = .ok files) (member : file ∈ files) :
    (analyzer.rootedAt file.path).readable workspace = .ok [file] := by
  refine (readable_eq_ok_iff _).mpr ⟨alone, (refused?_eq_none_iff _).mpr fun other isFile => ?_⟩
  obtain rfl := List.mem_singleton.mp isFile
  rw [refusal?_rootedAt]
  exact (analyzer.refused?_eq_none_iff).mp (analyzer.readable_eq_ok_iff.mp read).2 other member

section Alone

variable {analyzer} {reported : Path}
  (alone : (analyzer.rootedAt file.path).discover workspace = .ok [file])

include alone

/-- Linting the file alone reports what linting the directory reports about the file. -/
theorem analyze_rootedAt (wellFormed : workspace.tree.WellFormed)
    (looks : ∀ rule ∈ analyzer.rules, rule.LooksAtText)
    (reportedEq : (analyzer.rootedAt file.path).reportedPath workspace file = reported)
    (read : analyzer.readable workspace = .ok files) (member : file ∈ files) :
    (analyzer.rootedAt file.path).analyze workspace = .ok {
      violations := (((analyzer.allViolations workspace files).mergeSort inOrder).filter
        fun violation => violation.location.file = analyzer.reportedPath workspace file).map
          (Violation.inFile reported)
      filesChecked := if (Text.decode? file.bytes).isSome then 1 else 0 } := by
  have relative : ∀ rule ∈ analyzer.rules, rule.ReportsRelatively :=
    fun rule listed => (looks rule listed).reportsRelatively
  have apart := analyzer.nodup_map_reportedPath wellFormed
    (analyzer.readable_eq_ok_iff.mp read).1
  have allInFile : ∀ violation ∈ analyzer.allViolations workspace [file],
      violation.location.file = analyzer.reportedPath workspace file := by
    intro violation found
    obtain ⟨entry, isChecked, inFile⟩ :=
      analyzer.exists_checked_of_mem_allViolations relative found
    rw [inFile, eq_of_mem_checked_singleton isChecked]
  rw [analyze_eq _ wellFormed, analyzer.readable_rootedAt alone read member]
  dsimp only [Except.map]
  rw [allViolations_rootedAt looks reportedEq, length_checked_singleton,
    StableSort.filter_mergeSort inOrder_trans inOrder_total,
    analyzer.filter_allViolations_eq relative apart member, map_inFile_mergeSort allInFile]

/-- So does formatting. -/
theorem format_rootedAt_snd (wellFormed : workspace.tree.WellFormed) (mode : Mode)
    (reportedEq : (analyzer.rootedAt file.path).reportedPath workspace file = reported)
    (read : analyzer.readable workspace = .ok files) (member : file ∈ files) :
    ((analyzer.rootedAt file.path).format mode workspace).2 = .ok {
      changed := ((analyzer.allChanges workspace files).filter fun change =>
        change.file = analyzer.reportedPath workspace file).map
          fun change => { change with file := reported }
      filesChecked := if (Text.decode? file.bytes).isSome then 1 else 0 } := by
  have apart := analyzer.nodup_map_reportedPath wellFormed
    (analyzer.readable_eq_ok_iff.mp read).1
  rw [format_snd_eq _ wellFormed, analyzer.readable_rootedAt alone read member]
  dsimp only [Except.map]
  rw [allChanges_rootedAt reportedEq, length_checked_singleton,
    analyzer.filter_allChanges_eq apart member]

end Alone

variable {analyzer} in
/-- The file is written in the same way, unless the run on the directory stops before it. -/
theorem get?_format_write_rootedAt (wellFormed : workspace.tree.WellFormed)
    (found : analyzer.discover workspace = .ok files) (member : file ∈ files)
    (goesOnBefore : ∀ other ∈ files, other.path.order file.path = .lt →
      ∃ read, analyzer.readFile workspace.directory workspace.tree other.path = .ok read) :
    ((analyzer.rootedAt file.path).format .write workspace).1.get? file.address =
      (analyzer.format .write workspace).1.get? file.address := by
  have opens := analyzer.opens_of_discover wellFormed found
  have inTree := opens.get?_eq file member
  cases goesOn : analyzer.refusal? workspace.directory workspace.tree file with
  | none =>
      have leads := ((analyzer.refusal?_eq_none_iff opens member).mp goesOn).1
      have alone : (analyzer.rootedAt file.path).discover workspace = .ok [file] :=
        discover_rootedAt leads inTree
      have isReached := analyzer.mem_reached wellFormed found member goesOn
        fun other otherMember before => (analyzer.refusal?_eq_none_iff_exists).mpr
          (goesOnBefore other otherMember before)
      have reachedAlone : file ∈ (analyzer.rootedAt file.path).reached workspace.directory
          workspace.tree [file] := by
        simp [reached, refusal?_rootedAt, goesOn]
      rw [get?_format_write_of_reached wellFormed alone reachedAlone,
        get?_format_write_of_reached wellFormed found isReached]
      rfl
  | some error =>
      -- Neither of the runs comes to write the file.
      have notReached : ∀ others,
          file ∉ analyzer.reached workspace.directory workspace.tree others := by
        intro others isReached
        cases goesOn.symm.trans (analyzer.refusal?_of_reached isReached)
      rw [get?_format_write_of_not_reached wellFormed found member (notReached files)]
      cases leads : workspace.tree.resolve workspace.directory file.path with
      | error fault =>
          rw [format, discover_rootedAt_of_error leads]
          exact inTree
      | ok address =>
          obtain rfl := opens.leads_only file member address leads
          have alone : (analyzer.rootedAt file.path).discover workspace = .ok [file] :=
            discover_rootedAt leads inTree
          exact get?_format_write_of_not_reached wellFormed alone (List.mem_singleton_self file)
            (notReached [file])

variable {analyzer} in
theorem analyze_rootedAt_eq_error_iff (wellFormed : workspace.tree.WellFormed)
    (found : analyzer.discover workspace = .ok files) (member : file ∈ files)
    (error : AnalysisError) :
    (analyzer.rootedAt file.path).analyze workspace = .error error ↔
      (workspace.CanRead file.path ∧ analyzer.failOnUndecodable = true ∧
        Text.decode? file.bytes = none ∧ error = .undecodable file.path) ∨
      ∃ fault, workspace.tree.resolve workspace.directory file.path = .error fault ∧
        error = .walk ((analyzer.rootedAt file.path).search.rootMessage fault) := by
  have opens := analyzer.opens_of_discover wellFormed found
  rw [opens.canRead_iff member]
  cases leads : workspace.tree.resolve workspace.directory file.path with
  | error fault =>
      rw [analyze, discover_rootedAt_of_error leads]
      simp [bind, Except.bind, @eq_comm _ error]
  | ok address =>
      obtain rfl := opens.leads_only file member address leads
      have alone : (analyzer.rootedAt file.path).discover workspace = .ok [file] :=
        discover_rootedAt leads (opens.get?_eq file member)
      have refusedEq : (analyzer.rootedAt file.path).refused? workspace.directory workspace.tree
          [file] = analyzer.refusal? workspace.directory workspace.tree file := by
        simp [refused?, refusal?_rootedAt]
      rw [analyze_eq _ wellFormed, readable, alone]
      simp only [bind, Except.bind, refusedEq]
      rw [analyzer.refusal?_eq opens member, leads]
      cases Text.decode? file.bytes <;> cases analyzer.failOnUndecodable <;>
        simp [Except.map, @eq_comm _ error]

/-- An analyzer of a directory and the analyzer of one file that it finds there agree about the
file, as long as the run on the directory does not fail. -/
theorem file_alone_agrees {root : Address} (wellFormed : workspace.tree.WellFormed)
    (leads : workspace.tree.resolve workspace.directory analyzer.root = .ok root)
    (isDirectory : workspace.tree.isDirectoryAt root = true)
    (looks : ∀ rule ∈ analyzer.rules, rule.LooksAtText)
    (found : analyzer.discover workspace = .ok files) (member : file ∈ files) :
    ∃ name, file.path.fileName? = some name ∧
      analyzer.AgreesAlone workspace files file name := by
  have inTree := (analyzer.holds_of_discover wellFormed found).get?_eq file member
  obtain ⟨names, reaches⟩ : ∃ names, analyzer.search.Reaches root names file := by
    rw [analyzer.search.eq_filesBelow_of_find leads isDirectory
      (analyzer.discover_eq_ok_iff.mp found)] at member
    exact analyzer.search.exists_reaches wellFormed member
  obtain ⟨name, isFileName, reportedEq⟩ := exists_reportedPath_rootedAt inTree reaches
  refine ⟨name, isFileName, ?_⟩
  constructor
  case analyze_eq =>
    intro report succeeded
    obtain ⟨others, read, rfl⟩ := analyzer.exists_of_analyze_ok wellFormed succeeded
    obtain rfl := Except.ok.inj (found.symm.trans (analyzer.readable_eq_ok_iff.mp read).1)
    have leadsToFile := (analyzer.resolve_of_readable wellFormed read member).1
    exact analyze_rootedAt (discover_rootedAt leadsToFile inTree) wellFormed looks
      (reportedEq leadsToFile) read member
  case dryRun_eq =>
    intro report succeeded
    obtain ⟨others, read, rfl⟩ := analyzer.exists_of_format_ok wellFormed succeeded
    obtain rfl := Except.ok.inj (found.symm.trans (analyzer.readable_eq_ok_iff.mp read).1)
    have leadsToFile := (analyzer.resolve_of_readable wellFormed read member).1
    exact format_rootedAt_snd (discover_rootedAt leadsToFile inTree) wellFormed .dryRun
      (reportedEq leadsToFile) read member
  case write_eq => exact get?_format_write_rootedAt wellFormed found member
  case fails_iff => exact analyze_rootedAt_eq_error_iff wellFormed found member

theorem file_alone_agrees_sample :
    nestedWorkspace.tree.WellFormed ∧
      nestedWorkspace.tree.resolve ["p"] sampleAnalyzer.root = .ok ["p"] ∧
      nestedWorkspace.tree.isDirectoryAt ["p"] = true ∧
      (∀ rule ∈ sampleAnalyzer.rules, rule.LooksAtText) ∧
      (∃ files file, sampleAnalyzer.discover nestedWorkspace = .ok files ∧ file ∈ files ∧
        file.path = ⟨["", "p", "a", "b"]⟩) ∧
      (sampleAnalyzer.rootedAt ⟨["", "p", "a", "b"]⟩).analyze nestedWorkspace =
        .ok ⟨[TrailingSpaces.violationAt {} ⟨⟨["b"]⟩, 1, 2, 1, 1⟩], 1⟩ := by
  have wellFormed : nestedWorkspace.tree.WellFormed := by decide +kernel
  have leads : nestedWorkspace.tree.resolve ["p"] sampleAnalyzer.root = .ok ["p"] := by cbv
  have isDirectory : nestedWorkspace.tree.isDirectoryAt ["p"] = true := by cbv
  have looks : ∀ rule ∈ sampleAnalyzer.rules, rule.LooksAtText := by
    intro rule listed
    obtain rfl := List.mem_singleton.mp listed
    exact TrailingSpaces.looksAtText_rule {}
  let file : FoundFile := ⟨⟨["", "p", "a", "b"]⟩, ["p", "a", "b"], Text.encode ['x', '\t']⟩
  have found : sampleAnalyzer.discover nestedWorkspace =
      .ok [file, ⟨⟨["", "p", "b"]⟩, ["p", "b"], Text.encode [' ']⟩] := by cbv
  have member : file ∈ [file, ⟨⟨["", "p", "b"]⟩, ["p", "b"], Text.encode [' ']⟩] := by simp
  have named : file.path.fileName? = some "b" := by cbv
  have succeeded : sampleAnalyzer.analyze nestedWorkspace =
      .ok ⟨[TrailingSpaces.violationAt {} ⟨⟨["a", "b"]⟩, 1, 2, 1, 1⟩,
        TrailingSpaces.violationAt {} ⟨⟨["b"]⟩, 1, 1, 0, 1⟩], 2⟩ := by cbv
  obtain ⟨name, isFileName, agrees⟩ :=
    sampleAnalyzer.file_alone_agrees wellFormed leads isDirectory looks found member
  obtain rfl := Option.some.inj (named.symm.trans isFileName)
  exact ⟨wellFormed, leads, isDirectory, looks, ⟨_, file, found, member, rfl⟩,
    (agrees.analyze_eq _ succeeded).trans (by cbv)⟩

/-- A directory with a file that is no text in front of a text to mend. -/
def blockedWorkspace : Workspace where
  tree := ⟨[(["p"], .directory), (["p", "a"], .file ⟨#[0xff]⟩),
    (["p", "b"], .file (Text.encode ['x', ' ']))]⟩
  directory := ["p"]

/-- A run on the directory that fails before it comes to a file does not agree with the run on the
file alone: that one reports a violation and mends the file. -/
theorem file_alone_differs :
    blockedWorkspace.tree.WellFormed ∧
      blockedWorkspace.tree.resolve ["p"] strictAnalyzer.root = .ok ["p"] ∧
      blockedWorkspace.tree.isDirectoryAt ["p"] = true ∧
      (∀ rule ∈ strictAnalyzer.rules, rule.LooksAtText) ∧
      (∃ files file, strictAnalyzer.discover blockedWorkspace = .ok files ∧ file ∈ files ∧
        file.path = ⟨["", "p", "b"]⟩) ∧
      strictAnalyzer.analyze blockedWorkspace = .error (.undecodable ⟨["", "p", "a"]⟩) ∧
      (strictAnalyzer.rootedAt ⟨["", "p", "b"]⟩).analyze blockedWorkspace =
        .ok ⟨[TrailingSpaces.violationAt {} ⟨⟨["b"]⟩, 1, 2, 1, 1⟩], 1⟩ ∧
      (strictAnalyzer.format .write blockedWorkspace).1.get? ["p", "b"] =
        some (.file (Text.encode ['x', ' '])) ∧
      ((strictAnalyzer.rootedAt ⟨["", "p", "b"]⟩).format .write blockedWorkspace).1.get?
        ["p", "b"] = some (.file (Text.encode ['x'])) := by
  refine ⟨by decide +kernel, by cbv, by cbv, ?_, ?_, by cbv, by cbv, by cbv, by cbv⟩
  · intro rule listed
    obtain rfl := List.mem_singleton.mp listed
    exact TrailingSpaces.looksAtText_rule {}
  · let file : FoundFile := ⟨⟨["", "p", "b"]⟩, ["p", "b"], Text.encode ['x', ' ']⟩
    have found : strictAnalyzer.discover blockedWorkspace =
        .ok [⟨⟨["", "p", "a"]⟩, ["p", "a"], ⟨#[0xff]⟩⟩, file] := by cbv
    exact ⟨_, file, found, by simp, rfl⟩

end Analyzer
end TidyLines
