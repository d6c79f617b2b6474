import TidyLines.Proofs.Analyzer.Runs
import TidyLines.Proofs.Discovery.Exclusion
import TidyLines.Proofs.List.StableSort

/-!
# Searches with other patterns

A search asks of one pattern after the other whether it leaves a file out or takes it, so that what
is found depends on two sets of patterns (`Search.Chooses`).  A union of patterns for leaving out
leaves what each of them leaves, and a union of patterns for taking takes what one of them takes
(`Plan.discover_homomorphic`).  It does not matter which patterns stand in a plan and which in its
configuration.  Only where there are none do others count: the default patterns leave files out
then, and all files are taken.
-/

namespace TidyLines

namespace Search

variable (search : Search) {workspace : Workspace} {path : Path}

/-- A pattern leaves a path out. -/
def LeavesOut (path : Path) (pattern : String) : Prop :=
  (∃ tokens, Glob.parse pattern.toList = .ok tokens ∧
    (Glob.accepts tokens path.text.toList = true ∨
      Glob.accepts tokens (search.relativeText path) = true)) ∨
  2 ≤ Text.byteLength (Text.dropStarPairs pattern.toList) ∧
    Text.dropStarPairs pattern.toList <:+: '/' :: search.relativeText path

/-- A pattern takes a path. -/
def Takes (path : Path) (pattern : String) : Prop :=
  ∃ tokens, Glob.parse pattern.toList = .ok tokens ∧
    Glob.accepts tokens (search.relativeText path) = true

/-- A path is found under patterns of files to leave out and to take. -/
structure Chooses (excluded included : Finset String) (path : Path) : Prop where
  not_left_out : ∀ pattern ∈ excluded, ¬ search.LeavesOut path pattern
  taken : included = ∅ ∨ ∃ pattern ∈ included, search.Takes path pattern

/-- A search without patterns offers a file, and patterns of files to leave out and to take let it
be found.  A root that is a file is found under all of them. -/
structure FindsUnder (workspace : Workspace) (excluded included : Finset String)
    (file : FoundFile) : Prop where
  offered : file ∈ (search.find workspace).toOption.getD []
  chosen : workspace.isFile search.root = true ∨ search.Chooses excluded included file.path

variable {search}

section Sets

variable {excluded included more : Finset String}

theorem chooses_union_excluded_iff :
    search.Chooses (excluded ∪ more) included path ↔
      search.Chooses excluded included path ∧ search.Chooses more included path := by
  constructor
  · rintro ⟨notLeftOut, taken⟩
    exact ⟨⟨fun pattern listed => notLeftOut pattern (Finset.mem_union_left more listed), taken⟩,
      ⟨fun pattern listed => notLeftOut pattern (Finset.mem_union_right excluded listed), taken⟩⟩
  · rintro ⟨⟨notByFirst, taken⟩, ⟨notBySecond, -⟩⟩
    refine ⟨fun pattern listed => ?_, taken⟩
    rcases Finset.mem_union.mp listed with inFirst | inSecond
    · exact notByFirst pattern inFirst
    · exact notBySecond pattern inSecond

theorem chooses_union_included_iff (nonempty : included.Nonempty) (moreNonempty : more.Nonempty) :
    search.Chooses excluded (included ∪ more) path ↔
      search.Chooses excluded included path ∨ search.Chooses excluded more path := by
  constructor
  · rintro ⟨notLeftOut, isEmpty | ⟨pattern, listed, takes⟩⟩
    · exact absurd (Finset.union_eq_empty.mp isEmpty).1 nonempty.ne_empty
    · rcases Finset.mem_union.mp listed with inFirst | inSecond
      · exact Or.inl ⟨notLeftOut, Or.inr ⟨pattern, inFirst, takes⟩⟩
      · exact Or.inr ⟨notLeftOut, Or.inr ⟨pattern, inSecond, takes⟩⟩
  · have widen : ∀ part ⊆ included ∪ more, part.Nonempty →
        search.Chooses excluded part path → search.Chooses excluded (included ∪ more) path := by
      rintro part within partNonempty ⟨notLeftOut, isEmpty | ⟨pattern, listed, takes⟩⟩
      · exact absurd isEmpty partNonempty.ne_empty
      · exact ⟨notLeftOut, Or.inr ⟨pattern, within listed, takes⟩⟩
    rintro (byFirst | bySecond)
    · exact widen included Finset.subset_union_left nonempty byFirst
    · exact widen more Finset.subset_union_right moreNonempty bySecond

variable {file : FoundFile}

theorem findsUnder_union_excluded_iff :
    search.FindsUnder workspace (excluded ∪ more) included file ↔
      search.FindsUnder workspace excluded included file ∧
        search.FindsUnder workspace more included file := by
  constructor
  · rintro ⟨offered, chosen⟩
    rw [chooses_union_excluded_iff, or_and_left] at chosen
    exact ⟨⟨offered, chosen.1⟩, ⟨offered, chosen.2⟩⟩
  · rintro ⟨⟨offered, chosenFirst⟩, ⟨-, chosenSecond⟩⟩
    refine ⟨offered, ?_⟩
    rw [chooses_union_excluded_iff, or_and_left]
    exact ⟨chosenFirst, chosenSecond⟩

theorem findsUnder_union_included_iff (nonempty : included.Nonempty)
    (moreNonempty : more.Nonempty) :
    search.FindsUnder workspace excluded (included ∪ more) file ↔
      search.FindsUnder workspace excluded included file ∨
        search.FindsUnder workspace excluded more file := by
  constructor
  · rintro ⟨offered, chosen⟩
    rw [chooses_union_included_iff nonempty moreNonempty, or_or_distrib_left] at chosen
    exact chosen.imp (fun chosen => ⟨offered, chosen⟩) fun chosen => ⟨offered, chosen⟩
  · intro either
    have offered := either.elim FindsUnder.offered FindsUnder.offered
    refine ⟨offered, ?_⟩
    rw [chooses_union_included_iff nonempty moreNonempty, or_or_distrib_left]
    exact either.imp FindsUnder.chosen FindsUnder.chosen

/-- Where all files are taken, those are found that are found under other patterns. -/
theorem FindsUnder.of_all_taken (finds : search.FindsUnder workspace excluded included file) :
    search.FindsUnder workspace excluded ∅ file :=
  ⟨finds.offered, finds.chosen.imp_right fun chooses => ⟨chooses.not_left_out, Or.inl rfl⟩⟩

end Sets

/-! ## Searches without patterns -/

variable (search)

/-- A search of the same root without patterns. -/
def withoutFilters : Search := { search with excluded := [], included := [] }

theorem filesBelow_eq_filter (root : Address) :
    search.filesBelow workspace root =
      (search.withoutFilters.filesBelow workspace root).filter fun file =>
        search.includes file.path && !search.excludes file.path := by
  have allPass : ∀ file : FoundFile,
      (!search.withoutFilters.excludes file.path && search.withoutFilters.includes file.path) =
        true := fun _ => rfl
  rw [filesBelow, filesBelow, StableSort.filter_mergeSort inOrder_trans inOrder_total]
  simp only [allPass, List.filter_true, Bool.and_comm]
  rfl

/-- Patterns choose among the files that a search without patterns finds below a directory. -/
theorem find_eq_filter :
    search.find workspace =
      (search.withoutFilters.find workspace).map (List.filter fun file =>
        workspace.isFile search.root || search.includes file.path &&
          !search.excludes file.path) := by
  have sameRoot : search.withoutFilters.root = search.root := rfl
  cases leads : workspace.tree.resolve workspace.directory search.root with
  | error fault =>
      rw [find, find, sameRoot, leads]
      rfl
  | ok root =>
      cases isFile : workspace.isFile search.root with
      | true =>
          obtain ⟨bytes, atRoot⟩ := (Workspace.isFile_iff leads).mp isFile
          simp only [find, sameRoot, leads, atRoot, Except.map, Bool.true_or, List.filter_true]
      | false =>
          rw [search.find_of_walks leads isFile, search.withoutFilters.find_of_walks leads isFile,
            filesBelow_eq_filter]
          simp only [Bool.false_or]
          have sameFiles : search.withoutFilters.respectIgnoreFiles = search.respectIgnoreFiles :=
            rfl
          rw [sameFiles]
          cases Ignore.complaintsAbove workspace.tree search.respectIgnoreFiles root <;> rfl

end Search

namespace Filter

variable {patterns : List String} {filters : List Filter}

theorem length_of_mapM_parse (read : patterns.mapM parse = .ok filters) :
    filters.length = patterns.length := by
  induction patterns generalizing filters with
  | nil =>
      obtain rfl : [] = filters := by simpa [pure, Except.pure] using read
      rfl
  | cons pattern others ih =>
      simp only [List.mapM_cons, bind_eq_ok_iff, pure, Except.pure, Except.ok.injEq] at read
      obtain ⟨first, -, more, readMore, rfl⟩ := read
      rw [List.length_cons, List.length_cons, ih readMore]

theorem exists_mapM_parse
    (readable : ∀ pattern ∈ patterns, ∃ tokens, Glob.parse pattern.toList = .ok tokens) :
    ∃ filters, patterns.mapM parse = .ok filters := by
  induction patterns with
  | nil => exact ⟨[], rfl⟩
  | cons pattern others ih =>
      obtain ⟨⟨tokens, parsed⟩, othersReadable⟩ := List.forall_mem_cons.mp readable
      obtain ⟨more, readMore⟩ := ih othersReadable
      have isRead : parse pattern = .ok ⟨pattern.toList, tokens⟩ :=
        parse_eq_ok_iff.mpr ⟨parsed, rfl⟩
      refine ⟨⟨pattern.toList, tokens⟩ :: more, ?_⟩
      rw [List.mapM_cons, isRead, readMore]
      rfl

end Filter

namespace Plan

variable (plan : Plan) {workspace : Workspace} {directory : Path} {analyzer : Analyzer}

/-- The patterns of files to leave out that are given, in the plan or in its configuration. -/
def givenExcluded : List String :=
  plan.excluded ++ (plan.config.map (·.selection.excluded)).getD []

/-- A search for a plan, without its patterns. -/
def bareSearch (directory : Path) : Search where
  root := directory.join plan.givenRoot
  excluded := []
  included := []
  respectIgnoreFiles := (plan.config.getD {}).selection.respectIgnoreFiles

/-- The files that are found for a plan. -/
def discover (workspace : Workspace) : Except AnalysisError (List FoundFile) := do
  (← plan.build workspace.directoryPath).discover workspace

/-- The set of the patterns of files to leave out that are given. -/
def excludedSet : Finset String := plan.givenExcluded.toFinset

/-- The set of the patterns of files to take. -/
def includedSet : Finset String := plan.allIncluded.toFinset

/-- Two plans look for files below the same root, with the same ignore files. -/
structure SameGround (first second : Plan) : Prop where
  givenRoot_eq : first.givenRoot = second.givenRoot
  respectIgnoreFiles_eq : (first.config.getD {}).selection.respectIgnoreFiles =
    (second.config.getD {}).selection.respectIgnoreFiles

/-- All patterns of a plan can be read. -/
def Readable : Prop :=
  ∀ pattern ∈ plan.givenExcluded ++ plan.allIncluded,
    ∃ tokens, Glob.parse pattern.toList = .ok tokens

variable {plan}

theorem allExcluded_eq : plan.allExcluded =
    if plan.givenExcluded = [] then defaultExcluded else plan.givenExcluded := by
  simp only [allExcluded, List.isEmpty_iff]
  rfl

theorem includes_iff (built : plan.build directory = .ok analyzer) {path : Path} :
    analyzer.search.includes path = true ↔ plan.allIncluded = [] ∨
      ∃ pattern ∈ plan.allIncluded, analyzer.search.Takes path pattern := by
  obtain ⟨excluded, included, -, readIncluded, rfl⟩ := build_eq_ok_iff.mp built
  have mem_iff : ∀ {filter : Filter}, filter ∈ included ↔ ∃ pattern ∈ plan.allIncluded,
      Filter.parse pattern = .ok filter := Filter.mem_of_mapM_parse readIncluded
  have isEmpty_iff : included = [] ↔ plan.allIncluded = [] := by
    rw [← List.length_eq_zero_iff, ← List.length_eq_zero_iff,
      Filter.length_of_mapM_parse readIncluded]
  rw [Search.includes, Bool.or_eq_true, List.isEmpty_iff, List.any_eq_true]
  refine or_congr isEmpty_iff ?_
  constructor
  · rintro ⟨filter, member, accepted⟩
    obtain ⟨pattern, listed, parsed⟩ := mem_iff.mp member
    exact ⟨pattern, listed, filter.tokens, (Filter.parse_eq_ok_iff.mp parsed).1, accepted⟩
  · rintro ⟨pattern, listed, tokens, parsed, accepted⟩
    have isRead : Filter.parse pattern = .ok ⟨pattern.toList, tokens⟩ :=
      Filter.parse_eq_ok_iff.mpr ⟨parsed, rfl⟩
    exact ⟨_, mem_iff.mpr ⟨pattern, listed, isRead⟩, accepted⟩

/-- The filters of an analyzer choose as the patterns do from which they were read. -/
theorem chooses_iff (built : plan.build directory = .ok analyzer) {path : Path} :
    (plan.bareSearch directory).Chooses plan.allExcluded.toFinset plan.allIncluded.toFinset path ↔
      (analyzer.search.includes path && !analyzer.search.excludes path) = true := by
  have leftOut_iff : analyzer.search.excludes path = true ↔
      ∃ pattern ∈ plan.allExcluded, analyzer.search.LeavesOut path pattern := by
    rw [excludes_iff built]
    simp only [MatchesExcluded, OccursExcluded, Search.LeavesOut, and_or_left, exists_or]
  rw [Bool.and_eq_true, includes_iff built, Bool.not_eq_true', ← Bool.not_eq_true, leftOut_iff]
  obtain ⟨excluded, included, -, -, rfl⟩ := build_eq_ok_iff.mp built
  -- Both searches have the same root, on which alone it depends what one pattern does.
  have sameLeavesOut : (plan.analyzerWith directory excluded included).search.LeavesOut path =
      (plan.bareSearch directory).LeavesOut path := rfl
  have sameTakes : (plan.analyzerWith directory excluded included).search.Takes path =
      (plan.bareSearch directory).Takes path := rfl
  rw [sameLeavesOut, sameTakes]
  constructor
  · rintro ⟨notLeftOut, taken⟩
    simp only [List.mem_toFinset, List.toFinset_eq_empty_iff] at notLeftOut taken
    exact ⟨taken, by simpa using notLeftOut⟩
  · rintro ⟨taken, notLeftOut⟩
    exact ⟨by simpa using notLeftOut, by simpa using taken⟩

theorem exists_build (readable : plan.Readable) (directory : Path) :
    ∃ analyzer, plan.build directory = .ok analyzer := by
  have defaultsRead : ∀ pattern ∈ defaultExcluded,
      ∃ tokens, Glob.parse pattern.toList = .ok tokens := by
    intro pattern listed
    obtain ⟨name, ofDirectories, -⟩ := exists_isOfDirectories_of_mem_default pattern listed
    exact ⟨_, ofDirectories.spelling ▸ Glob.parse_directoryPattern ofDirectories.literal⟩
  obtain ⟨excluded, readExcluded⟩ :
      ∃ filters, plan.allExcluded.mapM Filter.parse = .ok filters := by
    apply Filter.exists_mapM_parse
    intro pattern listed
    rw [allExcluded_eq] at listed
    split at listed
    · exact defaultsRead pattern listed
    · exact readable pattern (List.mem_append_left _ listed)
  obtain ⟨included, readIncluded⟩ : ∃ filters, plan.allIncluded.mapM Filter.parse = .ok filters :=
    Filter.exists_mapM_parse fun pattern listed => readable pattern (List.mem_append_right _ listed)
  exact ⟨_, build_eq_ok_iff.mpr ⟨excluded, included, readExcluded, readIncluded, rfl⟩⟩

/-! ## What is found -/

open scoped Classical in
theorem discover_eq (readable : plan.Readable) (workspace : Workspace) :
    plan.discover workspace =
      (((plan.bareSearch workspace.directoryPath).find workspace).map (List.filter fun file =>
        workspace.isFile (workspace.directoryPath.join plan.givenRoot) ∨
          (plan.bareSearch workspace.directoryPath).Chooses plan.allExcluded.toFinset
            plan.includedSet file.path)).mapError AnalysisError.walk := by
  obtain ⟨analyzer, built⟩ := plan.exists_build readable workspace.directoryPath
  have bare : analyzer.search.withoutFilters = plan.bareSearch workspace.directoryPath ∧
      analyzer.search.root = workspace.directoryPath.join plan.givenRoot := by
    obtain ⟨excluded, included, -, -, rfl⟩ := build_eq_ok_iff.mp built
    exact ⟨rfl, rfl⟩
  have found : plan.discover workspace = analyzer.discover workspace := by
    rw [discover, built]
    rfl
  rw [found, Analyzer.discover, analyzer.search.find_eq_filter, bare.1, bare.2]
  simp only [includedSet, chooses_iff built, Bool.decide_or, Bool.decide_eq_true]

theorem mem_discover_iff (readable : plan.Readable) {files : List FoundFile}
    (found : plan.discover workspace = .ok files) {file : FoundFile} :
    file ∈ files ↔ (plan.bareSearch workspace.directoryPath).FindsUnder workspace
      plan.allExcluded.toFinset plan.includedSet file := by
  classical
  rw [plan.discover_eq readable, mapError_eq_ok_iff] at found
  cases offered : (plan.bareSearch workspace.directoryPath).find workspace with
  | error reason => simp [offered, Except.map] at found
  | ok all =>
      rw [offered] at found
      obtain rfl := Except.ok.inj found
      rw [List.mem_filter, decide_eq_true_iff]
      constructor
      · rintro ⟨member, chosen⟩
        exact ⟨by simpa [offered, Except.toOption] using member, chosen⟩
      · rintro ⟨member, chosen⟩
        exact ⟨by simpa [offered, Except.toOption] using member, chosen⟩

/-- The files of a plan are found in the order of their paths, of which no two are tied. -/
theorem pairwise_order_lt_discover (wellFormed : workspace.tree.WellFormed)
    {files : List FoundFile} (found : plan.discover workspace = .ok files) :
    files.Pairwise fun first second => first.path.order second.path = .lt := by
  obtain ⟨analyzer, -, discovered⟩ := bind_eq_ok_iff.mp found
  exact analyzer.search.pairwise_order_lt_find wellFormed
    (analyzer.discover_eq_ok_iff.mp discovered)

section Compared

variable {first second joined : Plan}

theorem toFinset_allExcluded (nonempty : plan.excludedSet.Nonempty) :
    plan.allExcluded.toFinset = plan.excludedSet := by
  rw [allExcluded_eq, if_neg]
  · rfl
  · rintro isEmpty
    simp [excludedSet, isEmpty] at nonempty

theorem toFinset_allExcluded_congr (same : first.excludedSet = second.excludedSet) :
    first.allExcluded.toFinset = second.allExcluded.toFinset := by
  rcases first.excludedSet.eq_empty_or_nonempty with isEmpty | nonempty
  · have secondEmpty := same.symm.trans isEmpty
    rw [excludedSet, List.toFinset_eq_empty_iff] at isEmpty secondEmpty
    rw [allExcluded_eq, allExcluded_eq, if_pos isEmpty, if_pos secondEmpty]
  · rw [toFinset_allExcluded nonempty, toFinset_allExcluded (same ▸ nonempty), same]

theorem SameGround.bareSearch_eq (sameGround : first.SameGround second) (directory : Path) :
    first.bareSearch directory = second.bareSearch directory := by
  rw [bareSearch, bareSearch, sameGround.givenRoot_eq, sameGround.respectIgnoreFiles_eq]

/-- Plans with the same sets of patterns find the same. -/
theorem discover_congr (sameGround : first.SameGround second) (firstReadable : first.Readable)
    (secondReadable : second.Readable)
    (sameExcluded : first.allExcluded.toFinset = second.allExcluded.toFinset)
    (sameIncluded : first.includedSet = second.includedSet) :
    first.discover workspace = second.discover workspace := by
  rw [first.discover_eq firstReadable, second.discover_eq secondReadable,
    sameGround.bareSearch_eq, sameGround.givenRoot_eq, sameExcluded, sameIncluded]

theorem discover_eq_error_iff (sameGround : first.SameGround second)
    (firstReadable : first.Readable) (secondReadable : second.Readable) (error : AnalysisError) :
    first.discover workspace = .error error ↔ second.discover workspace = .error error := by
  rw [first.discover_eq firstReadable, second.discover_eq secondReadable,
    sameGround.bareSearch_eq]
  cases (second.bareSearch workspace.directoryPath).find workspace with
  | error reason => rfl
  | ok files => exact ⟨nofun, nofun⟩

/-- What is found for a plan is put together from what is found for two others, as its sets of
patterns are from theirs. -/
structure Combines (workspace : Workspace) (joined first second : Plan) : Prop where
  fails_iff : ∀ error,
    joined.discover workspace = .error error ↔ first.discover workspace = .error error
  sorted : ∀ files, joined.discover workspace = .ok files →
    files.Pairwise fun one other => one.path.order other.path = .lt
  of_same_sets : joined.excludedSet = first.excludedSet →
    joined.includedSet = first.includedSet →
      joined.discover workspace = first.discover workspace
  /-- Where no patterns of files to leave out are given, there are the default ones. -/
  of_none_excluded : joined.excludedSet = ∅ →
    first.excludedSet = {"**/target/**", "**/vendor/**"} →
      joined.includedSet = first.includedSet →
        joined.discover workspace = first.discover workspace
  of_none_included : joined.excludedSet = first.excludedSet → joined.includedSet = ∅ →
    ∀ found others, joined.discover workspace = .ok found →
      first.discover workspace = .ok others → others ⊆ found
  mem_of_union_excluded : first.excludedSet.Nonempty → second.excludedSet.Nonempty →
    joined.excludedSet = first.excludedSet ∪ second.excludedSet →
      joined.includedSet = first.includedSet → joined.includedSet = second.includedSet →
        ∀ found inFirst inSecond, joined.discover workspace = .ok found →
          first.discover workspace = .ok inFirst → second.discover workspace = .ok inSecond →
            ∀ file, file ∈ found ↔ file ∈ inFirst ∧ file ∈ inSecond
  mem_of_union_included : first.includedSet.Nonempty → second.includedSet.Nonempty →
    joined.includedSet = first.includedSet ∪ second.includedSet →
      joined.excludedSet = first.excludedSet → joined.excludedSet = second.excludedSet →
        ∀ found inFirst inSecond, joined.discover workspace = .ok found →
          first.discover workspace = .ok inFirst → second.discover workspace = .ok inSecond →
            ∀ file, file ∈ found ↔ file ∈ inFirst ∨ file ∈ inSecond

/-- Searches for plans of the same ground fail alike, and what they find is a function of the two
sets of patterns that turns unions of patterns to leave out into intersections and unions of
patterns to take into unions. -/
theorem discover_homomorphic (wellFormed : workspace.tree.WellFormed)
    (joinedReadable : joined.Readable) (firstReadable : first.Readable)
    (secondReadable : second.Readable) (withFirst : joined.SameGround first)
    (withSecond : joined.SameGround second) : Combines workspace joined first second := by
  have sameAsFirst := withFirst.bareSearch_eq workspace.directoryPath
  have sameAsSecond := withSecond.bareSearch_eq workspace.directoryPath
  constructor
  case fails_iff => exact discover_eq_error_iff withFirst joinedReadable firstReadable
  case sorted => exact fun files => pairwise_order_lt_discover wellFormed
  case of_same_sets =>
    intro sameExcluded sameIncluded
    exact discover_congr withFirst joinedReadable firstReadable
      (toFinset_allExcluded_congr sameExcluded) sameIncluded
  case of_none_excluded =>
    intro isEmpty isDefault sameIncluded
    have nonempty : first.excludedSet.Nonempty := by simp [isDefault]
    refine discover_congr withFirst joinedReadable firstReadable ?_ sameIncluded
    rw [excludedSet, List.toFinset_eq_empty_iff] at isEmpty
    rw [toFinset_allExcluded nonempty, isDefault, allExcluded_eq, if_pos isEmpty]
    rfl
  case of_none_included =>
    intro sameExcluded allTaken found others foundJoined foundFirst file member
    rw [mem_discover_iff firstReadable foundFirst, ← sameAsFirst,
      ← toFinset_allExcluded_congr sameExcluded] at member
    rw [mem_discover_iff joinedReadable foundJoined, allTaken]
    exact member.of_all_taken
  case mem_of_union_excluded =>
    intro firstNonempty secondNonempty isUnion likeFirst likeSecond found inFirst inSecond
      foundJoined foundFirst foundSecond file
    have nonempty : joined.excludedSet.Nonempty := by
      rw [isUnion]
      exact firstNonempty.inl
    rw [mem_discover_iff joinedReadable foundJoined, mem_discover_iff firstReadable foundFirst,
      mem_discover_iff secondReadable foundSecond, ← sameAsFirst, ← sameAsSecond, ← likeFirst,
      ← likeSecond, toFinset_allExcluded nonempty, toFinset_allExcluded firstNonempty,
      toFinset_allExcluded secondNonempty, isUnion]
    exact Search.findsUnder_union_excluded_iff
  case mem_of_union_included =>
    intro firstNonempty secondNonempty isUnion likeFirst likeSecond found inFirst inSecond
      foundJoined foundFirst foundSecond file
    rw [mem_discover_iff joinedReadable foundJoined, mem_discover_iff firstReadable foundFirst,
      mem_discover_iff secondReadable foundSecond, ← sameAsFirst, ← sameAsSecond,
      ← toFinset_allExcluded_congr likeFirst, ← toFinset_allExcluded_congr likeSecond, isUnion]
    exact Search.findsUnder_union_included_iff firstNonempty secondNonempty

end Compared

/-! ## Two plans and one with the patterns of both -/

/-- A directory of three files. -/
def lettersWorkspace : Workspace where
  tree := ⟨[(["p"], .directory), (["p", "c"], .file (Text.encode ['c'])),
    (["p", "a"], .file (Text.encode ['a'])), (["p", "b"], .file (Text.encode ['b']))]⟩
  directory := ["p"]

def letterFile (letter : Char) : FoundFile :=
  ⟨⟨["", "p", ".", String.singleton letter]⟩, ["p", String.singleton letter],
    Text.encode [letter]⟩

/-- A plan for the directory with patterns of its own and others in its configuration. -/
def lettersPlan (own configured : List String) : Plan where
  excluded := own
  config := some { selection := { excluded := configured, respectIgnoreFiles := false } }

theorem discover_homomorphic_sample :
    lettersWorkspace.tree.WellFormed ∧
      (lettersPlan ["b"] ["a", "b"]).Readable ∧ (lettersPlan ["a"] []).Readable ∧
      (lettersPlan [] ["b"]).Readable ∧
      (lettersPlan ["b"] ["a", "b"]).SameGround (lettersPlan ["a"] []) ∧
      (lettersPlan ["b"] ["a", "b"]).SameGround (lettersPlan [] ["b"]) ∧
      Combines lettersWorkspace (lettersPlan ["b"] ["a", "b"]) (lettersPlan ["a"] [])
        (lettersPlan [] ["b"]) ∧
      ∃ found inFirst inSecond,
        (lettersPlan ["b"] ["a", "b"]).discover lettersWorkspace = .ok found ∧
        (lettersPlan ["a"] []).discover lettersWorkspace = .ok inFirst ∧
        (lettersPlan [] ["b"]).discover lettersWorkspace = .ok inSecond ∧
        found = [letterFile 'c'] ∧ inFirst = [letterFile 'b', letterFile 'c'] ∧
        inSecond = [letterFile 'a', letterFile 'c'] ∧
        ∀ file, file ∈ found ↔ file ∈ inFirst ∧ file ∈ inSecond := by
  have wellFormed : lettersWorkspace.tree.WellFormed := by decide +kernel
  have readable : ∀ own configured, own ++ configured ⊆ ["a", "b"] →
      (lettersPlan own configured).Readable := by
    intro own configured within pattern listed
    have inBoth : pattern ∈ own ++ configured := by
      simpa [lettersPlan, givenExcluded, allIncluded] using listed
    rcases List.mem_pair.mp (within inBoth) with rfl | rfl
    · exact ⟨[.literal 'a'], by cbv⟩
    · exact ⟨[.literal 'b'], by cbv⟩
  have foundJoined : (lettersPlan ["b"] ["a", "b"]).discover lettersWorkspace =
      .ok [letterFile 'c'] := by cbv
  have foundFirst : (lettersPlan ["a"] []).discover lettersWorkspace =
      .ok [letterFile 'b', letterFile 'c'] := by cbv
  have foundSecond : (lettersPlan [] ["b"]).discover lettersWorkspace =
      .ok [letterFile 'a', letterFile 'c'] := by cbv
  have joinedReadable := readable ["b"] ["a", "b"] (by decide)
  have firstReadable := readable ["a"] [] (by decide)
  have secondReadable := readable [] ["b"] (by decide)
  have combines := discover_homomorphic wellFormed joinedReadable firstReadable secondReadable
    ⟨rfl, rfl⟩ ⟨rfl, rfl⟩
  refine ⟨wellFormed, joinedReadable, firstReadable, secondReadable, ⟨rfl, rfl⟩, ⟨rfl, rfl⟩,
    combines, _, _, _, foundJoined, foundFirst, foundSecond, rfl, rfl, rfl, ?_⟩
  exact combines.mem_of_union_excluded (by decide) (by decide) (by decide) (by decide) (by decide)
    _ _ _ foundJoined foundFirst foundSecond

end Plan
end TidyLines
