import TidyLines.Proofs.Analyzer.Spelling
import TidyLines.Proofs.Discovery.Exclusion
import TidyLines.Proofs.FileTree.AddressPaths

/-!
# The current directory as a root

An analyzer whose root is a dot reads it from the current directory, but spells the dot in all paths
below.  A pattern that is matched with full paths can see the dot, and then the root makes a
difference (`Analyzer.not_alike_of_dot`).  Otherwise it makes none
(`Analyzer.results_alike_of_dot`).  Patterns of directories do not see it
(`Analyzer.BuiltTwice.dotUnseen_of_directories`).
-/

namespace TidyLines

/-! ## Patterns of directories -/

namespace Glob

/-- A pattern of directories matches the paths that lead through a directory of its name. -/
theorem accepts_directoryTokens_path_iff {name : Text} (noSlash : '/' ∉ name) {path : Path}
    (nonempty : path.segments ≠ []) (noSlashes : ∀ segment ∈ path.segments, '/' ∉ segment.toList) :
    accepts (directoryTokens name) path.text.toList = true ↔
      name ∈ (path.segments.map String.toList).dropLast := by
  rw [accepts_directoryTokens_iff, Path.text, String.toList_intercalate]
  refine slashes_infix_iff_mem noSlash (by simpa using nonempty) ?_
  intro segment member
  obtain ⟨original, inPath, rfl⟩ := List.mem_map.mp member
  exact noSlashes original inPath

theorem accepts_directoryTokens_pathOf_iff {name : Text} (noSlash : '/' ∉ name)
    {address : Address} {names : List String} (nonempty : names ≠ [])
    (noSlashes : ∀ step ∈ address ++ names, '/' ∉ step.toList) :
    accepts (directoryTokens name) (FileTree.pathOf (address ++ names)).text.toList = true ↔
      name = [] ∨ name ∈ address.map String.toList ∨ name ∈ (names.map String.toList).dropLast := by
  have spelled : (FileTree.pathOf (address ++ names)).segments = "" :: (address ++ names) :=
    FileTree.segments_pathOf (List.append_ne_nil_of_right_ne_nil address nonempty)
  rw [accepts_directoryTokens_path_iff noSlash, spelled]
  · rw [List.map_cons, List.map_append, List.dropLast_cons_of_ne_nil (by simp [nonempty]),
      List.dropLast_append_of_ne_nil (by simp [nonempty]), List.mem_cons, List.mem_append]
    rfl
  · rw [spelled]
    exact List.cons_ne_nil _ _
  · rw [spelled]
    exact List.forall_mem_cons.mpr ⟨by simp, noSlashes⟩

end Glob

/-- Patterns of directories match a path with a dot in it when they match it without. -/
theorem Plan.matchesExcluded_of_dot_iff {plan : Plan} {search other : Search} {address : Address}
    {names : List String} (nonempty : names ≠ [])
    (noSlashes : ∀ name ∈ address ++ names, '/' ∉ name.toList)
    (directories : ∀ pattern ∈ plan.allExcluded, ∃ name,
      IsOfDirectories pattern name ∧ '/' ∉ name ∧ name ≠ ['.'])
    (sameRelative : other.relativeText (FileTree.pathOf (address ++ ["."] ++ names)) =
      search.relativeText (FileTree.pathOf (address ++ names))) :
    plan.MatchesExcluded other (FileTree.pathOf (address ++ ["."] ++ names)) ↔
      plan.MatchesExcluded search (FileTree.pathOf (address ++ names)) := by
  refine exists_congr fun pattern => and_congr_right fun listed => exists_congr fun tokens =>
    and_congr_right fun parsed => ?_
  obtain ⟨name, ofDirectories, noSlash, notDot⟩ := directories pattern listed
  rw [ofDirectories.spelling, Glob.parse_directoryPattern ofDirectories.literal] at parsed
  cases parsed
  have dotNoSlash : ∀ step ∈ address ++ ["."] ++ names, '/' ∉ step.toList := by
    intro step member
    simp only [List.mem_append, List.mem_singleton] at member noSlashes
    rcases member with (inAddress | rfl) | inNames
    · exact noSlashes step (Or.inl inAddress)
    · decide
    · exact noSlashes step (Or.inr inNames)
  rw [sameRelative, Glob.accepts_directoryTokens_pathOf_iff noSlash nonempty dotNoSlash,
    Glob.accepts_directoryTokens_pathOf_iff noSlash nonempty noSlashes]
  simp [notDot]

/-! ## Both roots -/

namespace Analyzer

variable {plan : Plan} {workspace : Workspace} {dotted absolute : Analyzer}

/-- One plan, built in the current directory with a dot for its root and with the path of the
directory, to which both spellings lead. -/
structure BuiltTwice (plan : Plan) (workspace : Workspace) (dotted absolute : Analyzer) :
    Prop where
  givenRoot_eq : plan.givenRoot = .ofString "."
  dotted_built : plan.build workspace.directoryPath = .ok dotted
  absolute_built :
    { plan with root := some workspace.directoryPath }.build workspace.directoryPath = .ok absolute
  isDirectory : workspace.tree.isDirectoryAt workspace.directory = true
  dotted_leads :
    workspace.tree.resolve workspace.directory dotted.root = .ok workspace.directory
  absolute_leads :
    workspace.tree.resolve workspace.directory absolute.root = .ok workspace.directory

/-- Nothing in a plan tells a path below the dot from the path of the same file without it. -/
structure DotUnseen (plan : Plan) (workspace : Workspace) (dotted absolute : Analyzer) :
    Prop where
  rules : ∀ rule ∈ plan.rules, rule.IgnoresSpelling
  /-- Both paths of a file can be used, or neither can. -/
  accepted : ∀ names bytes,
    workspace.tree.get? (workspace.directory ++ names) = some (.file bytes) →
      FileTree.checkSpelling (dotted.search.pathOf names) =
        FileTree.checkSpelling (absolute.search.pathOf names)
  patterns : ∀ names bytes,
    workspace.tree.get? (workspace.directory ++ names) = some (.file bytes) →
      (plan.MatchesExcluded dotted.search (dotted.search.pathOf names) ↔
        plan.MatchesExcluded absolute.search (absolute.search.pathOf names))
  userRules : ∀ names isDirectory,
    (absolute.search.ignoreContext workspace).judgeUser?
        (dotted.search.pathOf names).text.toList isDirectory =
      (absolute.search.ignoreContext workspace).judgeUser?
        (absolute.search.pathOf names).text.toList isDirectory

namespace BuiltTwice

variable (twice : BuiltTwice plan workspace dotted absolute)

include twice

theorem exists_filters : ∃ excluded included,
    dotted = plan.analyzerWith workspace.directoryPath excluded included ∧
      absolute = { plan with root := some workspace.directoryPath }.analyzerWith
        workspace.directoryPath excluded included := by
  obtain ⟨excluded, included, readExcluded, readIncluded, dottedEq⟩ :=
    Plan.build_eq_ok_iff.mp twice.dotted_built
  obtain ⟨others, othersIncluded, readOthers, readOthersIncluded, absoluteEq⟩ :=
    Plan.build_eq_ok_iff.mp twice.absolute_built
  cases readExcluded.symm.trans readOthers
  cases readIncluded.symm.trans readOthersIncluded
  exact ⟨excluded, included, dottedEq, absoluteEq⟩

theorem dotted_eq : dotted = { absolute with search := dotted.search } := by
  obtain ⟨excluded, included, rfl, rfl⟩ := twice.exists_filters
  rfl

theorem absolute_root : absolute.search.root = FileTree.pathOf workspace.directory := by
  obtain ⟨excluded, included, -, rfl⟩ := twice.exists_filters
  have isAbsolute : workspace.directoryPath.isAbsolute = true := by
    rw [Workspace.directoryPath]
    cases workspace.directory <;> rfl
  change workspace.directoryPath.join workspace.directoryPath = _
  rw [Path.join, if_pos isAbsolute]
  rfl

/-- Paths are left out alike if the patterns match them alike. -/
theorem excludes_iff {names : List String} (nonempty : names ≠ [])
    (areNames : ∀ name ∈ names, Path.IsName name)
    (alike : plan.MatchesExcluded dotted.search (dotted.search.pathOf names) ↔
      plan.MatchesExcluded absolute.search (absolute.search.pathOf names)) :
    dotted.search.excludes (dotted.search.pathOf names) = true ↔
      absolute.search.excludes (absolute.search.pathOf names) = true := by
  have occurs : plan.OccursExcluded dotted.search (dotted.search.pathOf names) ↔
      plan.OccursExcluded absolute.search (absolute.search.pathOf names) := by
    rw [Plan.OccursExcluded, Plan.OccursExcluded,
      absolute.search.relativeText_pathOf_eq dotted.search nonempty areNames]
  rw [Plan.excludes_iff twice.dotted_built, Plan.excludes_iff twice.absolute_built]
  exact or_congr alike occurs

variable (wellFormed : workspace.tree.WellFormed)

include wellFormed

theorem are_names : ∀ name ∈ workspace.directory, Path.IsName name :=
  FileTree.are_names_of_get? wellFormed (FileTree.isDirectoryAt_iff.mp twice.isDirectory)

theorem empty_notMem : "" ∉ workspace.directory :=
  fun member => (twice.are_names wellFormed "" member).ne_empty rfl

theorem dotted_root : dotted.search.root = FileTree.pathOf (workspace.directory ++ ["."]) := by
  obtain ⟨excluded, included, rfl, -⟩ := twice.exists_filters
  have dot : Path.ofString "." = ⟨["."]⟩ := by decide +kernel
  change workspace.directoryPath.join plan.givenRoot = _
  rw [twice.givenRoot_eq, dot]
  exact FileTree.pathOf_join (twice.empty_notMem wellFormed) (List.cons_ne_nil _ _) rfl

/-- A file below the current directory is reached from there by names. -/
theorem below {names : List String} {bytes : ByteArray}
    (found : workspace.tree.get? (workspace.directory ++ names) = some (.file bytes)) :
    names ≠ [] ∧ ∀ name ∈ names, Path.IsName name := by
  constructor
  · rintro rfl
    rw [List.append_nil] at found
    cases found.symm.trans (FileTree.isDirectoryAt_iff.mp twice.isDirectory)
  · exact fun name member =>
      FileTree.are_names_of_get? wellFormed found name (List.mem_append_right _ member)

section Names

variable {names : List String} (nonempty : names ≠ [])
  (areNames : ∀ name ∈ names, Path.IsName name)

include nonempty areNames

theorem absolute_pathOf :
    absolute.search.pathOf names = FileTree.pathOf (workspace.directory ++ names) := by
  rw [Search.pathOf, twice.absolute_root, FileTree.pathOf_join (twice.empty_notMem wellFormed)
    nonempty (Path.isAbsolute_names areNames)]

theorem dotted_pathOf :
    dotted.search.pathOf names = FileTree.pathOf (workspace.directory ++ ["."] ++ names) := by
  have noEmpty : "" ∉ workspace.directory ++ ["."] := by
    simpa using twice.empty_notMem wellFormed
  rw [Search.pathOf, twice.dotted_root wellFormed,
    FileTree.pathOf_join noEmpty nonempty (Path.isAbsolute_names areNames)]

/-- Patterns of directories do not see the dot. -/
theorem matchesExcluded_iff
    (directories : ∀ pattern ∈ plan.allExcluded, ∃ name,
      Plan.IsOfDirectories pattern name ∧ '/' ∉ name ∧ name ≠ ['.']) :
    plan.MatchesExcluded dotted.search (dotted.search.pathOf names) ↔
      plan.MatchesExcluded absolute.search (absolute.search.pathOf names) := by
  have sameRelative :=
    absolute.search.relativeText_pathOf_eq dotted.search nonempty areNames
  have noSlashes : ∀ name ∈ workspace.directory ++ names, '/' ∉ name.toList := by
    intro name member
    rcases List.mem_append.mp member with inDirectory | inNames
    · exact (twice.are_names wellFormed name inDirectory).no_slash
    · exact (areNames name inNames).no_slash
  rw [twice.dotted_pathOf wellFormed nonempty areNames,
    twice.absolute_pathOf wellFormed nonempty areNames] at sameRelative ⊢
  exact Plan.matchesExcluded_of_dot_iff nonempty noSlashes directories sameRelative

end Names

/-- With patterns of directories and without rules of the user, the dot is not seen in paths that
are not too long. -/
theorem dotUnseen_of_directories (rules : ∀ rule ∈ plan.rules, rule.IgnoresSpelling)
    (accepted : ∀ names bytes,
      workspace.tree.get? (workspace.directory ++ names) = some (.file bytes) →
        FileTree.checkSpelling (dotted.search.pathOf names) =
          FileTree.checkSpelling (absolute.search.pathOf names))
    (directories : ∀ pattern ∈ plan.allExcluded, ∃ name,
      Plan.IsOfDirectories pattern name ∧ '/' ∉ name ∧ name ≠ ['.'])
    (noUserRules : (absolute.search.ignoreContext workspace).userRules = []) :
    DotUnseen plan workspace dotted absolute where
  rules := rules
  accepted := accepted
  patterns names bytes found := by
    obtain ⟨nonempty, areNames⟩ := twice.below wellFormed found
    exact twice.matchesExcluded_iff wellFormed nonempty areNames directories
  userRules names isDirectory := by
    rw [Ignore.Context.judgeUser?, Ignore.Context.judgeUser?, noUserRules]
    rfl

/-- A dot in front of all paths makes no difference to a search that does not see it. -/
theorem respells (unseen : DotUnseen plan workspace dotted absolute) :
    absolute.search.Respells dotted.search workspace workspace.directory where
  leads := twice.absolute_leads
  other_leads := twice.dotted_leads
  isDirectory := twice.isDirectory
  components_eq := by
    rw [twice.dotted_root wellFormed, twice.absolute_root, FileTree.components_pathOf,
      FileTree.components_pathOf, List.filterMap_append]
    simp [Path.Component.ofSegment?]
  respectIgnoreFiles_eq := by
    obtain ⟨excluded, included, rfl, rfl⟩ := twice.exists_filters
    rfl
  included_eq := by
    obtain ⟨excluded, included, rfl, rfl⟩ := twice.exists_filters
    rfl
  checkSpelling_eq := unseen.accepted
  excludes_iff names bytes found := by
    obtain ⟨nonempty, areNames⟩ := twice.below wellFormed found
    exact twice.excludes_iff nonempty areNames (unseen.patterns names bytes found)
  judgeUser?_eq := unseen.userRules

end BuiltTwice

/-- An analyzer with a dot for its root and one with the path of the current directory report the
same, if nothing in their plan sees the dot in the paths below. -/
theorem results_alike_of_dot (twice : BuiltTwice plan workspace dotted absolute)
    (wellFormed : workspace.tree.WellFormed)
    (unseen : DotUnseen plan workspace dotted absolute) :
    AlikeResults Eq (absolute.analyze workspace) (dotted.analyze workspace) ∧
      AlikeResults Eq (absolute.format .dryRun workspace).2
        (dotted.format .dryRun workspace).2 := by
  have respells := twice.respells wellFormed unseen
  have rules : ∀ rule ∈ absolute.rules, rule.IgnoresSpelling := by
    obtain ⟨excluded, included, -, rfl⟩ := twice.exists_filters
    exact unseen.rules
  rw [twice.dotted_eq]
  exact ⟨analyze_respell respells wellFormed rules, format_respell respells wellFormed rules _⟩

/-! ## Two plans for the sample -/

/-- The analyzer of a plan for the sample, once its patterns of files to leave out are read. -/
def sampleAnalyzerOf (plan : Plan) (excluded : List Filter) : Analyzer :=
  plan.analyzerWith sampleWorkspace.directoryPath excluded []

/-- The same plan with the path of the sample for its root. -/
def absoluteSamplePlan (plan : Plan) : Plan :=
  { plan with root := some sampleWorkspace.directoryPath }

section Sample

variable {plan : Plan} {excluded : List Filter} (dot : plan.givenRoot = .ofString ".")

include dot

theorem root_sampleAnalyzerOf :
    (sampleAnalyzerOf plan excluded).search.root = ⟨["", "p", "."]⟩ := by
  change sampleWorkspace.directoryPath.join plan.givenRoot = _
  rw [dot]
  cbv

omit dot in
theorem root_absoluteSamplePlan :
    (sampleAnalyzerOf (absoluteSamplePlan plan) excluded).search.root = ⟨["", "p"]⟩ := by
  cbv

theorem builtTwice_sample (read : plan.allExcluded.mapM Filter.parse = .ok excluded)
    (takesAll : plan.allIncluded = []) :
    BuiltTwice plan sampleWorkspace (sampleAnalyzerOf plan excluded)
      (sampleAnalyzerOf (absoluteSamplePlan plan) excluded) := by
  have readIncluded : plan.allIncluded.mapM Filter.parse = .ok [] := by
    rw [takesAll]
    rfl
  constructor
  case givenRoot_eq => exact dot
  case dotted_built => exact Plan.build_eq_ok_iff.mpr ⟨_, _, read, readIncluded, rfl⟩
  case absolute_built => exact Plan.build_eq_ok_iff.mpr ⟨_, _, read, readIncluded, rfl⟩
  case isDirectory => cbv
  case dotted_leads =>
    rw [root, root_sampleAnalyzerOf dot]
    cbv
  case absolute_leads =>
    rw [root, root_absoluteSamplePlan]
    cbv

/-- The files of the sample have short paths in both spellings. -/
theorem checkSpelling_sample {names : List String} {bytes : ByteArray}
    (found : sampleWorkspace.tree.get? (sampleWorkspace.directory ++ names) =
      some (.file bytes)) :
    FileTree.checkSpelling ((sampleAnalyzerOf plan excluded).search.pathOf names) =
      FileTree.checkSpelling
        ((sampleAnalyzerOf (absoluteSamplePlan plan) excluded).search.pathOf names) := by
  have listed := FileTree.mem_entries_of_get? found (FileTree.ne_nil_of_file found)
  have isFile : names = ["a"] ∧ bytes = Text.encode [' ', '\n', 'x', ' '] ∨
      names = ["b"] ∧ bytes = ⟨#[0xff]⟩ := by
    simpa [sampleWorkspace] using listed
  rw [Search.pathOf, Search.pathOf, root_sampleAnalyzerOf dot, root_absoluteSamplePlan]
  rcases isFile with ⟨rfl, -⟩ | ⟨rfl, -⟩ <;> cbv

end Sample

/-- A plan whose root is a dot by default, with the default patterns. -/
def dottedPlan : Plan where
  rules := [TrailingSpaces.rule {}]
  config := some { selection := { respectIgnoreFiles := false } }

/-- A plan that leaves out a file of the sample by its full path. -/
def fullPathPlan : Plan where
  excluded := ["/p/a"]
  config := some { selection := { respectIgnoreFiles := false } }

theorem results_alike_of_dot_sample : ∃ dotted absolute,
    BuiltTwice dottedPlan sampleWorkspace dotted absolute ∧
      DotUnseen dottedPlan sampleWorkspace dotted absolute ∧
      AlikeResults Eq (absolute.analyze sampleWorkspace) (dotted.analyze sampleWorkspace) ∧
      AlikeResults Eq (absolute.format .dryRun sampleWorkspace).2
        (dotted.format .dryRun sampleWorkspace).2 := by
  have read : dottedPlan.allExcluded.mapM Filter.parse = .ok [
      ⟨"**/target/**".toList, Glob.directoryTokens "target".toList⟩,
      ⟨"**/vendor/**".toList, Glob.directoryTokens "vendor".toList⟩] := by cbv
  have twice := builtTwice_sample (by rfl) read (by rfl)
  have rules : ∀ rule ∈ dottedPlan.rules, rule.IgnoresSpelling := by
    intro rule member
    obtain rfl := List.mem_singleton.mp member
    exact (TrailingSpaces.dependsOnText_rule {}).ignoresSpelling
      (TrailingSpaces.reportsRelatively_rule {})
  have unseen := twice.dotUnseen_of_directories wellFormed_sampleWorkspace rules
    (fun _ _ found => checkSpelling_sample (by rfl) found)
    Plan.exists_isOfDirectories_of_mem_default rfl
  exact ⟨_, _, twice, unseen, results_alike_of_dot twice wellFormed_sampleWorkspace unseen⟩

/-- A pattern with the full path of a file leaves it out only where the root is that path too. -/
theorem not_alike_of_dot : ∃ dotted absolute,
    BuiltTwice fullPathPlan sampleWorkspace dotted absolute ∧
      ¬ AlikeResults Eq (absolute.analyze sampleWorkspace) (dotted.analyze sampleWorkspace) := by
  have read : fullPathPlan.allExcluded.mapM Filter.parse =
      .ok [⟨"/p/a".toList, "/p/a".toList.map .literal⟩] := by cbv
  refine ⟨_, _, builtTwice_sample (by rfl) read (by rfl), ?_⟩
  have leftOut : (sampleAnalyzerOf (absoluteSamplePlan fullPathPlan)
      [⟨"/p/a".toList, "/p/a".toList.map .literal⟩]).analyze sampleWorkspace = .ok ⟨[], 0⟩ := by
    cbv
  have found : (sampleAnalyzerOf fullPathPlan
      [⟨"/p/a".toList, "/p/a".toList.map .literal⟩]).analyze sampleWorkspace = .ok ⟨[], 1⟩ := by
    cbv
  rw [leftOut, found]
  rintro ⟨⟨⟩⟩

end Analyzer
end TidyLines
