import TidyLines.Proofs.Analyzer.Building
import TidyLines.Proofs.Discovery.Found
import TidyLines.Proofs.FileTree.Ways
import TidyLines.Proofs.Glob.Directories

/-!
# Files that are left out

Besides the patterns themselves, the characters of a pattern without its pairs of stars decide about
a file: where they stand in its path, it is left out, although the pattern may not match
(`Search.not_excludes_iff_matches_builder`).  For patterns of directories, for which this is made,
it makes no difference, and a file is left out exactly when a pattern matches it
(`Search.excludes_iff_matches_or_occurs`).
-/

namespace TidyLines

namespace Text

theorem hasInfix_iff {part text : Text} : hasInfix part text = true ↔ part <:+: text := by
  induction text with
  | nil => simp [hasInfix]
  | cons character rest ih =>
      rw [hasInfix, Bool.or_eq_true, List.isPrefixOf_iff_prefix, ih, List.infix_cons_iff]

/-- A text in which two stars stand only at the end. -/
theorem dropStarPairs_append_stars {characters : Text} (noStar : '*' ∉ characters) :
    dropStarPairs (characters ++ ['*', '*']) = characters := by
  induction characters with
  | nil => rfl
  | cons character others ih =>
      obtain ⟨differs, free⟩ := not_or.mp (mt List.mem_cons.mpr noStar)
      rw [List.cons_append, dropStarPairs, ih free]
      exact fun rest isStar => absurd isStar.symm differs

/-- Of the pattern of directories of a name, the name between two slashes is left. -/
theorem dropStarPairs_directoryPattern {name : Text}
    (literal : ∀ character ∈ name, Glob.IsLiteral character) :
    dropStarPairs (Glob.directoryPattern name) = '/' :: (name ++ ['/']) := by
  have noStar : '*' ∉ '/' :: (name ++ ['/']) := by
    have notInName : '*' ∉ name := fun isStar => (literal '*' isStar).2.1 rfl
    simpa using notInName
  exact dropStarPairs_append_stars noStar

end Text

/-! ## Patterns that are read -/

namespace Filter

theorem parse_eq_ok_iff {pattern : String} {filter : Filter} :
    parse pattern = .ok filter ↔
      Glob.parse pattern.toList = .ok filter.tokens ∧ filter.pattern = pattern.toList := by
  obtain ⟨characters, tokens⟩ := filter
  cases read : Glob.parse pattern.toList with
  | error error => simp [parse, read, bind, Except.bind]
  | ok others =>
      simp [parse, read, bind, Except.bind, pure, Except.pure, eq_comm, and_comm]

variable {patterns : List String} {filters : List Filter}

theorem mem_of_mapM_parse (read : patterns.mapM parse = .ok filters) {filter : Filter} :
    filter ∈ filters ↔ ∃ pattern ∈ patterns, parse pattern = .ok filter := by
  induction patterns generalizing filters with
  | nil =>
      obtain rfl : [] = filters := by simpa [pure, Except.pure] using read
      simp
  | cons pattern others ih =>
      simp only [List.mapM_cons, bind_eq_ok_iff, pure, Except.pure, Except.ok.injEq] at read
      obtain ⟨first, readFirst, more, readMore, rfl⟩ := read
      simp [ih readMore, readFirst, eq_comm]

theorem exists_parse_of_mapM (read : patterns.mapM parse = .ok filters) :
    ∀ pattern ∈ patterns, ∃ filter, parse pattern = .ok filter := by
  induction patterns generalizing filters with
  | nil => simp
  | cons pattern others ih =>
      simp only [List.mapM_cons, bind_eq_ok_iff] at read
      obtain ⟨first, readFirst, more, readMore, -⟩ := read
      exact List.forall_mem_cons.mpr ⟨⟨first, readFirst⟩, ih readMore⟩

end Filter

/-! ## What leaves a file out -/

namespace Plan

variable (plan : Plan) (search : Search) (path : Path)

/-- A pattern of files to leave out matches a path, in full or as seen from the root. -/
def MatchesExcluded : Prop :=
  ∃ pattern ∈ plan.allExcluded, ∃ tokens, Glob.parse pattern.toList = .ok tokens ∧
    (Glob.accepts tokens path.text.toList = true ∨
      Glob.accepts tokens (search.relativeText path) = true)

/-- The characters of such a pattern without its pairs of stars, of which there are at least two
bytes, stand in a path as seen from the root, behind a slash. -/
def OccursExcluded : Prop :=
  ∃ pattern ∈ plan.allExcluded, 2 ≤ Text.byteLength (Text.dropStarPairs pattern.toList) ∧
    Text.dropStarPairs pattern.toList <:+: '/' :: search.relativeText path

variable {plan search path} {directory : Path} {analyzer : Analyzer}

/-- A path is left out if a pattern matches it, and also if it has the characters of one. -/
theorem excludes_iff (built : plan.build directory = .ok analyzer) :
    analyzer.search.excludes path = true ↔
      plan.MatchesExcluded analyzer.search path ∨ plan.OccursExcluded analyzer.search path := by
  obtain ⟨excluded, included, readExcluded, -, rfl⟩ := build_eq_ok_iff.mp built
  have mem_iff : ∀ {filter : Filter}, filter ∈ excluded ↔ ∃ pattern ∈ plan.allExcluded,
      Filter.parse pattern = .ok filter := Filter.mem_of_mapM_parse readExcluded
  rw [Search.excludes, Bool.or_eq_true, List.any_eq_true, List.any_eq_true]
  refine or_congr ?_ ?_
  · simp only [Bool.or_eq_true]
    constructor
    · rintro ⟨filter, member, accepted⟩
      obtain ⟨pattern, listed, parsed⟩ := mem_iff.mp member
      exact ⟨pattern, listed, filter.tokens, (Filter.parse_eq_ok_iff.mp parsed).1, accepted⟩
    · rintro ⟨pattern, listed, tokens, parsed, accepted⟩
      have isRead : Filter.parse pattern = .ok ⟨pattern.toList, tokens⟩ :=
        Filter.parse_eq_ok_iff.mpr ⟨parsed, rfl⟩
      exact ⟨_, mem_iff.mpr ⟨pattern, listed, isRead⟩, accepted⟩
  · simp only [Filter.occursIn, Bool.and_eq_true, decide_eq_true_eq, Text.hasInfix_iff]
    constructor
    · rintro ⟨filter, member, occurs⟩
      obtain ⟨pattern, listed, parsed⟩ := mem_iff.mp member
      rw [(Filter.parse_eq_ok_iff.mp parsed).2] at occurs
      exact ⟨pattern, listed, occurs⟩
    · rintro ⟨pattern, listed, occurs⟩
      obtain ⟨filter, parsed⟩ := Filter.exists_parse_of_mapM readExcluded pattern listed
      refine ⟨filter, mem_iff.mpr ⟨pattern, listed, parsed⟩, ?_⟩
      rw [(Filter.parse_eq_ok_iff.mp parsed).2]
      exact occurs

/-- A pattern of all that is below the directories of a name. -/
structure IsOfDirectories (pattern : String) (name : Text) : Prop where
  literal : ∀ character ∈ name, Glob.IsLiteral character
  spelling : pattern.toList = Glob.directoryPattern name

/-- A pattern of directories, or one of which hardly anything is left without its pairs of stars. -/
inductive IsPlain (pattern : String) : Prop where
  | directories {name : Text} (ofDirectories : IsOfDirectories pattern name)
  | short (atMostOne : Text.byteLength (Text.dropStarPairs pattern.toList) ≤ 1)

/-- The default patterns are of directories, each of which is one step of a path. -/
theorem exists_isOfDirectories_of_mem_default : ∀ pattern ∈ defaultExcluded,
    ∃ name, IsOfDirectories pattern name ∧ '/' ∉ name ∧ name ≠ ['.'] := by
  intro pattern listed
  rcases List.mem_cons.mp listed with rfl | other
  · exact ⟨"target".toList, ⟨Glob.isLiteral_of_all (by decide), by decide⟩, by decide, by decide⟩
  · obtain rfl := List.mem_singleton.mp other
    exact ⟨"vendor".toList, ⟨Glob.isLiteral_of_all (by decide), by decide⟩, by decide, by decide⟩

/-- Where the characters of a plain pattern stand, the pattern matches. -/
theorem MatchesExcluded.of_occurs (plain : ∀ pattern ∈ plan.allExcluded, IsPlain pattern)
    (occurs : plan.OccursExcluded search path) : plan.MatchesExcluded search path := by
  obtain ⟨pattern, listed, enough, stands⟩ := occurs
  cases plain pattern listed with
  | short atMostOne => omega
  | directories ofDirectories =>
      rw [ofDirectories.spelling, Text.dropStarPairs_directoryPattern ofDirectories.literal]
        at stands
      have accepted := (Glob.accepts_directoryTokens_iff _ _).mpr stands
      refine ⟨pattern, listed, _, ?_, Or.inr accepted⟩
      rw [ofDirectories.spelling, Glob.parse_directoryPattern ofDirectories.literal]

end Plan

namespace Search

variable {search : Search} {workspace : Workspace} {root : Address}

/-- A file below the root is left out if a pattern matches it, and also if it has the characters of
one.  With plain patterns only the first counts, so that all other files are found that are to be
taken. -/
theorem excludes_iff_matches_or_occurs {plan : Plan} {directory : Path} {analyzer : Analyzer}
    (built : plan.build directory = .ok analyzer)
    (leads : workspace.tree.resolve workspace.directory analyzer.root = .ok root)
    (isDirectory : workspace.tree.isDirectoryAt root = true) {file : FoundFile}
    (yielded : file ∈ analyzer.search.walked workspace root) :
    (analyzer.search.excludes file.path = true ↔
      plan.MatchesExcluded analyzer.search file.path ∨
        plan.OccursExcluded analyzer.search file.path) ∧
    ((∀ pattern ∈ plan.allExcluded, Plan.IsPlain pattern) →
      (analyzer.search.excludes file.path = true ↔
        plan.MatchesExcluded analyzer.search file.path) ∧
      ∀ files, analyzer.discover workspace = .ok files →
        (file ∈ files ↔ analyzer.search.includes file.path = true ∧
          ¬ plan.MatchesExcluded analyzer.search file.path)) := by
  have law : analyzer.search.excludes file.path = true ↔ _ := Plan.excludes_iff built
  refine ⟨law, fun plain => ?_⟩
  have matching : analyzer.search.excludes file.path = true ↔
      plan.MatchesExcluded analyzer.search file.path := by
    rw [law]
    exact or_iff_left_of_imp (Plan.MatchesExcluded.of_occurs plain)
  refine ⟨matching, fun files found => ?_⟩
  rw [Analyzer.discover, mapError_eq_ok_iff] at found
  rw [analyzer.search.eq_filesBelow_of_find leads isDirectory found, mem_filesBelow_iff,
    and_iff_right yielded, matching]

/-! ## A file with a name that goes on -/

def builderWorkspace : Workspace where
  tree := ⟨[(["p"], .directory), (["p", "builder"], .file (Text.encode [' ']))]⟩
  directory := ["p"]

def builderFile : FoundFile :=
  ⟨⟨["", "p", "builder"]⟩, ["p", "builder"], Text.encode [' ']⟩

/-- A plan for the directory in which one pattern leaves files out. -/
def planWithout (pattern : String) : Plan where
  root := some ⟨["", "p"]⟩
  excluded := [pattern]
  config := some { selection := { respectIgnoreFiles := false } }

def analyzerWithout (pattern : String) (tokens : List Glob.Token) : Analyzer :=
  (planWithout pattern).analyzerWith ⟨["", "p"]⟩ [⟨pattern.toList, tokens⟩] []

theorem leads_builder : builderWorkspace.tree.resolve ["p"] ⟨["", "p"]⟩ = .ok ["p"] := by
  refine FileTree.resolve_eq_ok_iff.mpr ⟨?_, ?_⟩
  · rw [FileTree.checkSpelling_eq_ok_iff]
    decide +kernel
  · change builderWorkspace.tree.walkTo false FileTree.linkBudget [] ["", "p"] = .ok ["p"]
    simp +decide [FileTree.walkTo, FileTree.get?, builderWorkspace]

theorem unread_builder {directory : Address} (isDirectory : directory ∈ [[], ["p"]]) :
    builderWorkspace.tree.read directory Ignore.Kind.plain.path = .error .notFound := by
  have asName : Ignore.Kind.plain.path = ⟨[".ignore"]⟩ := by decide +kernel
  have accepted : FileTree.checkSpelling ⟨[".ignore"]⟩ = .ok () := by
    rw [FileTree.checkSpelling_eq_ok_iff]
    decide +kernel
  have lost : builderWorkspace.tree.walkTo false FileTree.linkBudget directory [".ignore"] =
      .error .notFound := by
    rcases List.mem_pair.mp isDirectory with rfl | rfl <;>
      simp +decide [FileTree.walkTo, FileTree.get?, List.lookup_cons, builderWorkspace]
  rw [FileTree.read, FileTree.resolve, asName, accepted]
  change ((builderWorkspace.tree.walkTo false FileTree.linkBudget directory [".ignore"]) >>= _) = _
  rw [lost]
  rfl

theorem rules_load_builder {directory : Address} (isDirectory : directory ∈ [[], ["p"]]) :
    (Ignore.load builderWorkspace.tree directory .plain).rules = {} :=
  Ignore.rules_load_of_unread (unread_builder isDirectory)

theorem mem_walked_builder (pattern : String) (tokens : List Glob.Token) :
    builderFile ∈ (analyzerWithout pattern tokens).search.walked builderWorkspace ["p"] := by
  have wellFormed : builderWorkspace.tree.WellFormed := by decide +kernel
  have noFiles : Ignore.loadAll builderWorkspace.tree false = [] := by
    have directories : Ignore.directoriesOf builderWorkspace.tree = [[], ["p"]] := rfl
    simp [Ignore.loadAll, directories, Ignore.kinds, rules_load_builder]
  refine (mem_walked_iff _ wellFormed).mpr ⟨rfl, ["builder"], ⟨by simp, ?_, rfl, rfl⟩, rfl, ?_⟩
  · decide +kernel
  · simp [admits, ignoreContext, analyzerWithout, Plan.analyzerWith, planWithout, noFiles,
      Ignore.Context.admits_of_no_rules, Ignore.isHidden]

theorem discover_builder (pattern : String) (tokens : List Glob.Token) :
    (analyzerWithout pattern tokens).discover builderWorkspace =
      .ok ((analyzerWithout pattern tokens).search.filesBelow builderWorkspace ["p"]) := by
  have walks : builderWorkspace.isFile ⟨["", "p"]⟩ = false :=
    Workspace.isFile_of_isDirectoryAt leads_builder rfl
  have noComplaints : Ignore.complaintsAbove builderWorkspace.tree
      (analyzerWithout pattern tokens).search.respectIgnoreFiles ["p"] = [] := by
    simp [analyzerWithout, Plan.analyzerWith, planWithout, Ignore.complaintsAbove, Ignore.kinds,
      rules_load_builder]
  rw [Analyzer.discover, find_of_walks _ leads_builder walks, noComplaints]
  rfl

theorem excludes_iff_matches_sample :
    (planWithout "**/build/**").build ⟨["", "p"]⟩ =
        .ok (analyzerWithout "**/build/**" (Glob.directoryTokens "build".toList)) ∧
      builderWorkspace.tree.resolve ["p"] ⟨["", "p"]⟩ = .ok ["p"] ∧
      builderWorkspace.tree.isDirectoryAt ["p"] = true ∧
      (∀ pattern ∈ (planWithout "**/build/**").allExcluded, Plan.IsPlain pattern) ∧
      ∃ files, (analyzerWithout "**/build/**" (Glob.directoryTokens "build".toList)).discover
          builderWorkspace = .ok files ∧ builderFile ∈ files := by
  let analyzer := analyzerWithout "**/build/**" (Glob.directoryTokens "build".toList)
  have built : (planWithout "**/build/**").build ⟨["", "p"]⟩ = .ok analyzer := rfl
  have literal : ∀ character ∈ "build".toList, Glob.IsLiteral character :=
    Glob.isLiteral_of_all (by decide)
  have plain : ∀ pattern ∈ (planWithout "**/build/**").allExcluded, Plan.IsPlain pattern := by
    intro pattern listed
    obtain rfl := List.mem_singleton.mp listed
    exact .directories ⟨literal, by decide⟩
  have noMatch : ¬ (planWithout "**/build/**").MatchesExcluded analyzer.search
      builderFile.path := by
    rintro ⟨pattern, listed, tokens, parsed, accepted⟩
    obtain rfl := List.mem_singleton.mp listed
    cases (Glob.parse_directoryPattern literal).symm.trans parsed
    revert accepted
    decide +kernel
  have found := discover_builder "**/build/**" (Glob.directoryTokens "build".toList)
  have law := excludes_iff_matches_or_occurs built leads_builder rfl (mem_walked_builder _ _)
  have isFound := ((law.2 plain).2 _ found).mpr ⟨rfl, noMatch⟩
  exact ⟨built, leads_builder, rfl, plain, _, found, isFound⟩

/-- The pattern of a name leaves out files whose names only start with it. -/
theorem not_excludes_iff_matches_builder :
    let analyzer := analyzerWithout "**/build" (.anyDirectories :: "build".toList.map .literal)
    (planWithout "**/build").build ⟨["", "p"]⟩ = .ok analyzer ∧
      builderWorkspace.tree.resolve ["p"] analyzer.root = .ok ["p"] ∧
      builderWorkspace.tree.isDirectoryAt ["p"] = true ∧
      builderFile ∈ analyzer.search.walked builderWorkspace ["p"] ∧
      analyzer.search.excludes builderFile.path = true ∧
      ¬ (planWithout "**/build").MatchesExcluded analyzer.search builderFile.path := by
  intro analyzer
  have built : (planWithout "**/build").build ⟨["", "p"]⟩ = .ok analyzer := rfl
  have parsed : Glob.parse "**/build".toList =
      .ok (.anyDirectories :: "build".toList.map .literal) := rfl
  have excluded : analyzer.search.excludes builderFile.path = true := by decide +kernel
  refine ⟨built, leads_builder, rfl, mem_walked_builder _ _, excluded, ?_⟩
  rintro ⟨pattern, listed, tokens, alsoParsed, accepted⟩
  obtain rfl := List.mem_singleton.mp listed
  cases parsed.symm.trans alsoParsed
  revert accepted
  decide +kernel

end Search
end TidyLines
