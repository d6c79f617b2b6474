import TidyLines.CommandLine.Output
import TidyLines.Proofs.Analyzer.Linting
import TidyLines.Proofs.FileTree.Ways
import TidyLines.Proofs.TrailingSpaces.Places

/-!
# Back to the sources

A report names files as they are seen from the base directory, and a violation is shown beside the
text that is read under this name later.  This file follows a name back: joined to the base
directory it leads to the file that was checked (`Analyzer.leadsTo_reportedPath`), so that the text
which is read there is the one in which the violation was found, and the bytes of the violation are
white space of it (`Analyzer.violations_lead_back`).
-/

namespace TidyLines

namespace Analyzer

variable (analyzer : Analyzer) {workspace : Workspace} {files : List FoundFile}

/-- A reported path leads back from the base directory to the file that it was reported for. -/
structure LeadsTo (workspace : Workspace) (file : FoundFile) (reported : Path) : Prop where
  components_eq :
    ((analyzer.baseDirectory workspace).join reported).components = file.path.components
  resolve_eq : workspace.tree.resolve workspace.directory
      ((analyzer.baseDirectory workspace).join reported) =
    workspace.tree.resolve workspace.directory file.path
  resolve_path_eq : workspace.tree.resolve workspace.directory file.path = .ok file.address

variable {analyzer}

/-- The name of a root that is a file leads back from the directory of the root. -/
theorem leadsTo_of_root (wellFormed : workspace.tree.WellFormed)
    (connected : workspace.tree.Connected) {address : Address} {bytes : ByteArray}
    (isFile : workspace.isFile analyzer.root = true)
    (leads : workspace.tree.resolve workspace.directory analyzer.root = .ok address)
    (atRoot : workspace.tree.get? address = some (.file bytes)) :
    analyzer.LeadsTo workspace ⟨analyzer.root, address, bytes⟩
      ((analyzer.baseDirectory workspace).relativeTo analyzer.root) := by
  by_cases blank : analyzer.root.segments = []
  · -- A path without segments has no parent, and is seen from itself as itself.
    have rootEq : analyzer.root = ⟨[]⟩ := by
      rw [← blank]
    have joined : (analyzer.baseDirectory workspace).join
        ((analyzer.baseDirectory workspace).relativeTo analyzer.root) = analyzer.root := by
      rw [baseDirectory, isFile, if_pos rfl, rootEq]
      rfl
    constructor
    case components_eq => rw [joined]
    case resolve_eq => rw [joined]
    case resolve_path_eq => exact leads
  · obtain ⟨base, name, parts, leadsBack⟩ :=
      connected.exists_parent_of_file wellFormed blank leads atRoot
    have baseEq : analyzer.baseDirectory workspace = base := by
      rw [baseDirectory, isFile, if_pos rfl, parts.parent?_eq, Option.getD_some]
    rw [baseEq, parts.relativeTo_eq]
    constructor
    case components_eq =>
      rw [baseEq]
      exact parts.components_eq
    case resolve_eq =>
      rw [baseEq]
      exact leadsBack.trans leads.symm
    case resolve_path_eq => exact leads

/-- The names of a file below the root lead back from the root. -/
theorem leadsTo_of_reaches {root : Address} {names : List String} {file : FoundFile}
    (noFile : workspace.isFile analyzer.root = false)
    (reaches : analyzer.search.Reaches root names file)
    (leads : workspace.tree.resolve workspace.directory file.path = .ok file.address) :
    analyzer.LeadsTo workspace file (analyzer.reportedPath workspace file) := by
  have joined : (analyzer.baseDirectory workspace).join (analyzer.reportedPath workspace file) =
      file.path := by
    rw [analyzer.baseDirectory_eq_root noFile, analyzer.reportedPath_of_reaches noFile reaches,
      reaches.path_eq]
    rfl
  constructor
  case components_eq => rw [joined]
  case resolve_eq => rw [joined]
  case resolve_path_eq => exact leads

/-- The path under which a file is reported leads back to it. -/
theorem leadsTo_reportedPath (wellFormed : workspace.tree.WellFormed)
    (connected : workspace.tree.Connected) (read : analyzer.readable workspace = .ok files)
    {file : FoundFile} (member : file ∈ files) :
    analyzer.LeadsTo workspace file (analyzer.reportedPath workspace file) := by
  have leads := (analyzer.resolve_of_readable wellFormed read member).1
  have discovered := (analyzer.readable_eq_ok_iff.mp read).1
  rcases analyzer.search.find_cases (analyzer.discover_eq_ok_iff.mp discovered) with
    ⟨isFile, address, bytes, rootLeads, rfl, atRoot⟩ | ⟨noFile, root, -, rfl⟩
  · obtain rfl := List.mem_singleton.mp member
    exact leadsTo_of_root wellFormed connected isFile rootLeads atRoot
  · obtain ⟨names, reaches⟩ := analyzer.search.exists_reaches wellFormed member
    exact leadsTo_of_reaches noFile reaches leads

/-! ## Violations beside their sources -/

variable (analyzer)

/-- A rule that is on yields a violation in the text of a file. -/
structure Yields (workspace : Workspace) (files : List FoundFile) (rule : Rule) (file : FoundFile)
    (text : Text) (violation : Violation) : Prop where
  isEnabled : rule ∈ analyzer.enabledRules
  isChecked : (file, text) ∈ checked files
  isReported : violation ∈ analyzer.withSeverity rule
    (rule.check (sourceOf (analyzer.baseDirectory workspace) file text))

theorem mem_allViolations_iff {violation : Violation} :
    violation ∈ analyzer.allViolations workspace files ↔
      ∃ rule file text, analyzer.Yields workspace files rule file text violation := by
  rw [allViolations, List.mem_flatMap]
  constructor
  · rintro ⟨⟨file, text⟩, isChecked, reported⟩
    obtain ⟨rule, isEnabled, isReported⟩ := List.mem_flatMap.mp reported
    exact ⟨rule, file, text, isEnabled, isChecked, isReported⟩
  · rintro ⟨rule, file, text, yields⟩
    exact ⟨(file, text), yields.isChecked,
      List.mem_flatMap.mpr ⟨rule, yields.isEnabled, yields.isReported⟩⟩

/-- A violation leads back to the text in which it was found, and to the white space in it. -/
structure LeadsBack (workspace : Workspace) (settings : TrailingSpaces) (file : FoundFile)
    (text : Text) (violation : Violation) : Prop where
  leads_to_file : analyzer.LeadsTo workspace file violation.location.file
  /-- Reading the source again gives the text. -/
  read?_eq : (CommandLine.SourceAccess.below (analyzer.baseDirectory workspace)).read? workspace
    violation.location.file = some text
  holds_characters : violation.location.HoldsCharacters text
  all_white_space : ∀ character ∈
      (text.dropBytes violation.location.offset).takeBytes violation.location.length,
    settings.whitespace.contains character = true

variable {analyzer} {settings : TrailingSpaces}

theorem exists_marks_of_yields {file : FoundFile} {text : Text} {violation : Violation}
    (yields : analyzer.Yields workspace files (TrailingSpaces.rule settings) file text violation) :
    ∃ line, settings.Marks (analyzer.reportedPath workspace file) text line violation.location := by
  have atPlace : violation.location ∈ (settings.check
      (sourceOf (analyzer.baseDirectory workspace) file text)).map Violation.location := by
    rw [← analyzer.map_location_withSeverity (TrailingSpaces.rule settings)]
    exact List.mem_map_of_mem yields.isReported
  obtain ⟨original, reported, sameLocation⟩ := List.mem_map.mp atPlace
  rw [← sameLocation]
  exact settings.exists_marks_of_mem_check reported

theorem leadsBack_of_yields (wellFormed : workspace.tree.WellFormed)
    (connected : workspace.tree.Connected) (read : analyzer.readable workspace = .ok files)
    {file : FoundFile} {text : Text} {violation : Violation}
    (yields : analyzer.Yields workspace files (TrailingSpaces.rule settings) file text violation) :
    analyzer.LeadsBack workspace settings file text violation := by
  obtain ⟨line, marks⟩ := exists_marks_of_yields yields
  obtain ⟨member, decoded⟩ := mem_checked.mp yields.isChecked
  have fileEq : violation.location.file = analyzer.reportedPath workspace file := by
    obtain ⟨_, _, _, _, -, placeEq⟩ := marks
    rw [placeEq]
  have leads : analyzer.LeadsTo workspace file violation.location.file := by
    rw [fileEq]
    exact leadsTo_reportedPath wellFormed connected read member
  constructor
  case leads_to_file => exact leads
  case read?_eq =>
    have discovered := (analyzer.readable_eq_ok_iff.mp read).1
    have inTree := (analyzer.holds_of_discover wellFormed discovered).get?_eq file member
    have readBytes := FileTree.toOption_read_eq_some_iff.mpr
      ⟨file.address, leads.resolve_eq.trans leads.resolve_path_eq, inTree⟩
    rw [CommandLine.SourceAccess.read?, FileTree.toOption_readText, readBytes]
    exact decoded
  case holds_characters => exact marks.holdsCharacters
  case all_white_space => exact marks.all_matching

/-- A run that succeeds reports what its rules yield in the texts of the files that it finds, and
no two of these files under the same path.  A violation of the rule against trailing white space
leads back from the base directory to the file and to the white space in the text. -/
theorem violations_lead_back (wellFormed : workspace.tree.WellFormed)
    (connected : workspace.tree.Connected) {report : LintReport}
    (succeeded : analyzer.analyze workspace = .ok report) :
    ∃ files, analyzer.discover workspace = .ok files ∧
      (∀ violation, violation ∈ report.violations ↔
        ∃ rule file text, analyzer.Yields workspace files rule file text violation) ∧
      (∀ settings file text violation,
        analyzer.Yields workspace files (TrailingSpaces.rule settings) file text violation →
          analyzer.LeadsBack workspace settings file text violation) ∧
      files.Pairwise fun first second =>
        (analyzer.reportedPath workspace first).components ≠
          (analyzer.reportedPath workspace second).components := by
  obtain ⟨files, read, rfl⟩ := analyzer.exists_of_analyze_ok wellFormed succeeded
  have discovered := (analyzer.readable_eq_ok_iff.mp read).1
  refine ⟨files, discovered, ?_, ?_, ?_⟩
  · intro violation
    rw [List.mem_mergeSort, mem_allViolations_iff]
  · intro settings file text violation
    exact leadsBack_of_yields wellFormed connected read
  · refine (analyzer.pairwise_order_reportedPath_ne wellFormed discovered).imp ?_
    intro first second apart
    rwa [Ne, Path.order_eq_iff] at apart

/-- An analyzer of one file, with a dot on the way to it. -/
def sampleFileAnalyzer : Analyzer :=
  { sampleAnalyzer with search := { sampleAnalyzer.search with root := ⟨["", "p", ".", "a"]⟩ } }

/-- A directory with a text to mend, and another one of the same name below it. -/
def nestedWorkspace : Workspace where
  tree := ⟨[(["p"], .directory), (["p", "b"], .file (Text.encode [' '])),
    (["p", "a"], .directory), (["p", "a", "b"], .file (Text.encode ['x', '\t']))]⟩
  directory := ["p"]

theorem violations_lead_back_sample :
    sampleWorkspace.tree.WellFormed ∧ sampleWorkspace.tree.Connected ∧
      (∃ report, sampleFileAnalyzer.analyze sampleWorkspace = .ok report ∧
        ∃ violation ∈ report.violations, violation.location.file = ⟨["a"]⟩ ∧
          (CommandLine.SourceAccess.below (sampleFileAnalyzer.baseDirectory sampleWorkspace)).read?
              sampleWorkspace violation.location.file = some [' ', '\n', 'x', ' '] ∧
            violation.location.HoldsCharacters [' ', '\n', 'x', ' ']) ∧
      nestedWorkspace.tree.WellFormed ∧ nestedWorkspace.tree.Connected ∧
      ∃ first second, sampleAnalyzer.analyze nestedWorkspace = .ok ⟨[first, second], 2⟩ ∧
        (CommandLine.SourceAccess.below (sampleAnalyzer.baseDirectory nestedWorkspace)).read?
            nestedWorkspace first.location.file = some ['x', '\t'] ∧
          first.location.HoldsCharacters ['x', '\t'] ∧
        (CommandLine.SourceAccess.below (sampleAnalyzer.baseDirectory nestedWorkspace)).read?
            nestedWorkspace second.location.file = some [' '] ∧
          second.location.HoldsCharacters [' '] ∧
        first.location.file.components ≠ second.location.file.components := by
  refine ⟨wellFormed_sampleWorkspace, by decide +kernel, ?root_is_file, by decide +kernel,
    by decide +kernel, ?root_is_directory⟩
  case root_is_file =>
    let file : FoundFile := ⟨⟨["", "p", ".", "a"]⟩, ["p", "a"], Text.encode [' ', '\n', 'x', ' ']⟩
    let violation := TrailingSpaces.violationAt {} ⟨⟨["a"]⟩, 2, 2, 3, 1⟩
    have found : sampleFileAnalyzer.discover sampleWorkspace = .ok [file] := by cbv
    have succeeded : sampleFileAnalyzer.analyze sampleWorkspace =
        .ok ⟨[TrailingSpaces.violationAt {} ⟨⟨["a"]⟩, 1, 1, 0, 1⟩, violation], 1⟩ := by cbv
    have reported : sampleFileAnalyzer.withSeverity (TrailingSpaces.rule {})
        ((TrailingSpaces.rule {}).check (sourceOf
          (sampleFileAnalyzer.baseDirectory sampleWorkspace) file [' ', '\n', 'x', ' '])) =
        [TrailingSpaces.violationAt {} ⟨⟨["a"]⟩, 1, 1, 0, 1⟩, violation] := by cbv
    obtain ⟨files, discovered, -, leads, -⟩ :=
      violations_lead_back wellFormed_sampleWorkspace (by decide +kernel) succeeded
    obtain rfl := Except.ok.inj (found.symm.trans discovered)
    have back := leads {} file [' ', '\n', 'x', ' '] violation {
      isEnabled := List.mem_singleton_self _
      isChecked := mem_checked.mpr ⟨by simp, Text.decode?_encode _⟩
      isReported := by simp [reported] }
    exact ⟨_, succeeded, violation, by simp, rfl, back.read?_eq, back.holds_characters⟩
  case root_is_directory =>
    let below : FoundFile := ⟨⟨["", "p", "a", "b"]⟩, ["p", "a", "b"], Text.encode ['x', '\t']⟩
    let above : FoundFile := ⟨⟨["", "p", "b"]⟩, ["p", "b"], Text.encode [' ']⟩
    let first := TrailingSpaces.violationAt {} ⟨⟨["a", "b"]⟩, 1, 2, 1, 1⟩
    let second := TrailingSpaces.violationAt {} ⟨⟨["b"]⟩, 1, 1, 0, 1⟩
    have found : sampleAnalyzer.discover nestedWorkspace = .ok [below, above] := by cbv
    have succeeded : sampleAnalyzer.analyze nestedWorkspace = .ok ⟨[first, second], 2⟩ := by cbv
    have reportedBelow : sampleAnalyzer.withSeverity (TrailingSpaces.rule {})
        ((TrailingSpaces.rule {}).check (sourceOf (sampleAnalyzer.baseDirectory nestedWorkspace)
          below ['x', '\t'])) = [first] := by cbv
    have reportedAbove : sampleAnalyzer.withSeverity (TrailingSpaces.rule {})
        ((TrailingSpaces.rule {}).check (sourceOf (sampleAnalyzer.baseDirectory nestedWorkspace)
          above [' '])) = [second] := by cbv
    obtain ⟨files, discovered, -, leads, apart⟩ :=
      violations_lead_back (by decide +kernel) (by decide +kernel) succeeded
    obtain rfl := Except.ok.inj (found.symm.trans discovered)
    have backBelow := leads {} below ['x', '\t'] first {
      isEnabled := List.mem_singleton_self _
      isChecked := mem_checked.mpr ⟨by simp, Text.decode?_encode _⟩
      isReported := by simp [reportedBelow] }
    have backAbove := leads {} above [' '] second {
      isEnabled := List.mem_singleton_self _
      isChecked := mem_checked.mpr ⟨by simp, Text.decode?_encode _⟩
      isReported := by simp [reportedAbove] }
    have reportedPaths : sampleAnalyzer.reportedPath nestedWorkspace below = ⟨["a", "b"]⟩ ∧
        sampleAnalyzer.reportedPath nestedWorkspace above = ⟨["b"]⟩ := by
      constructor <;> cbv
    have differ := List.rel_of_pairwise_cons apart List.mem_cons_self
    rw [reportedPaths.1, reportedPaths.2] at differ
    exact ⟨first, second, succeeded, backBelow.read?_eq, backBelow.holds_characters,
      backAbove.read?_eq, backAbove.holds_characters, differ⟩

end Analyzer
end TidyLines
