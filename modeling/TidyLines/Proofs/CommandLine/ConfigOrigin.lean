import Mathlib.Data.Prod.Lex
import Mathlib.Order.Bounds.Basic
import Mathlib.Order.Nat
import TidyLines.CommandLine.ConfigOrigin
import TidyLines.Proofs.Discovery.Found
import TidyLines.Proofs.FileTree.AddressPaths
import TidyLines.Proofs.FileTree.Differing

/-!
# The configuration that holds

Every file in which a project may be configured has a rank, the number of steps up to its directory
and the place of its name among the names.  Of those that are there the one of least rank holds
(`ConfigOrigin.chosen_by_rank`).  Files that are made or deleted elsewhere do not change the choice
as long as no file of the ranks that count leads to them.  It may lead there through a link
(`ConfigOrigin.not_stable_under_creation`).
-/

namespace TidyLines

namespace FileTree

/-- A path leads to none of some addresses. -/
def Misses (tree : FileTree) (directory : Address) (path : Path) (places : Set Address) : Prop :=
  ∀ address, tree.resolve directory path = .ok address → address ∉ places

theorem isFile_iff {tree : FileTree} {directory : Address} {path : Path} :
    tree.isFile directory path = true ↔ ∃ address bytes,
      tree.resolve directory path = .ok address ∧ tree.get? address = some (.file bytes) := by
  rw [isFile, entryAt?]
  cases tree.resolve directory path with
  | error fault => simp
  | ok address => rcases found : tree.get? address with _ | _ | _ | _ <;> simp [found]

theorem isFile_eq_false {tree : FileTree} {directory : Address} {path : Path} {fault : Fault}
    (lost : tree.walkTo false linkBudget (startOf directory path) path.segments = .error fault) :
    tree.isFile directory path = false := by
  rw [Bool.eq_false_iff, ne_eq, isFile_iff]
  rintro ⟨address, bytes, leads, -⟩
  cases lost.symm.trans (resolve_eq_ok_iff.mp leads).2

/-- A path that leads to none of the places where two trees differ leads to a file in both of them
or in neither. -/
theorem DifferAt.isFile_eq {before after : FileTree} {places : Set Address}
    (differ : before.DifferAt after places) {directory : Address} {path : Path}
    (misses : before.Misses directory path places)
    (missesAfter : after.Misses directory path places) :
    after.isFile directory path = before.isFile directory path := by
  rw [Bool.eq_iff_iff, isFile_iff, isFile_iff]
  constructor
  · rintro ⟨address, bytes, leads, found⟩
    have elsewhere := missesAfter address leads
    exact ⟨address, bytes, (differ.resolve_eq_ok_iff elsewhere directory path).mp leads,
      (differ.get?_eq address elsewhere).symm.trans found⟩
  · rintro ⟨address, bytes, leads, found⟩
    have elsewhere := misses address leads
    exact ⟨address, bytes, (differ.resolve_eq_ok_iff elsewhere directory path).mpr leads,
      (differ.get?_eq address elsewhere).trans found⟩

end FileTree

namespace CommandLine.ConfigOrigin

/-- The rank of a file in which a project may be configured: the number of steps up to its
directory, then the place of its name among the names. -/
abbrev Rank : Type := ℕ ×ₗ ℕ

/-- The file of a rank, as seen from a directory. -/
def candidate? (start : Path) (rank : Rank) : Option Path :=
  (start.above? (ofLex rank).1).bind fun directory =>
    projectNames[(ofLex rank).2]?.map directory.child

variable (workspace : Workspace) (start : Path) {path : Path}

/-- The ranks of the files that are there. -/
def ranksPresent : Set Rank :=
  {rank | ∃ path, candidate? start rank = some path ∧ workspace.isFile path = true}

variable {workspace start}

/-! ## The first file is the one of least rank -/

theorem candidate?_eq_some_iff {rank : Rank} :
    candidate? start rank = some path ↔ ∃ directory name,
      start.ancestors[(ofLex rank).1]? = some directory ∧
        projectNames[(ofLex rank).2]? = some name ∧ directory.child name = path := by
  simp only [candidate?, Path.getElem?_ancestors, Option.bind_eq_some_iff, Option.map_eq_some_iff,
    exists_and_left]

theorem mem_projectCandidates_of_candidate? {rank : Rank}
    (isCandidate : candidate? start rank = some path) : path ∈ projectCandidates start := by
  obtain ⟨directory, name, isAbove, isNamed, rfl⟩ := candidate?_eq_some_iff.mp isCandidate
  exact List.mem_flatMap.mpr ⟨directory, List.mem_of_getElem? isAbove,
    List.mem_map_of_mem (List.mem_of_getElem? isNamed)⟩

/-- The file that is found first has the least rank of those that are there. -/
theorem exists_isLeast_of_find? {present : Path → Bool}
    (found : (projectCandidates start).find? present = some path) :
    ∃ rank, candidate? start rank = some path ∧
      ∀ other otherPath, candidate? start other = some otherPath → present otherPath = true →
        rank ≤ other := by
  rw [projectCandidates, List.find?_flatMap] at found
  obtain ⟨nearer, directory, farther, aboveEq, foundHere, noneNearer⟩ :=
    List.findSome?_eq_some_iff.mp found
  rw [List.find?_map, Option.map_eq_some_iff] at foundHere
  obtain ⟨name, foundName, rfl⟩ := foundHere
  obtain ⟨-, before, behind, namesEq, noneBefore⟩ := List.find?_eq_some_iff_append.mp foundName
  refine ⟨toLex (nearer.length, before.length), ?_, ?_⟩
  · rw [candidate?_eq_some_iff]
    exact ⟨directory, name, by simp [aboveEq], by simp [namesEq], rfl⟩
  · intro other otherPath isCandidate isPresent
    obtain ⟨otherDirectory, otherName, isAbove, isNamed, rfl⟩ :=
      candidate?_eq_some_iff.mp isCandidate
    rw [Prod.Lex.le_iff]
    by_contra smaller
    rw [not_or, not_and, not_lt] at smaller
    obtain ⟨notFarther, notBehind⟩ := smaller
    rcases Nat.lt_or_eq_of_le notFarther with isNearer | sameSteps
    · -- No file of a nearer directory is there.
      rw [aboveEq, List.getElem?_append_left isNearer] at isAbove
      have noneThere := noneNearer otherDirectory (List.mem_of_getElem? isAbove)
      rw [List.find?_map, Option.map_eq_none_iff, List.find?_eq_none] at noneThere
      exact noneThere otherName (List.mem_of_getElem? isNamed) isPresent
    · -- No file of the same directory is there under an earlier name.
      have sameDirectory : otherDirectory = directory := by
        rw [sameSteps, aboveEq] at isAbove
        simpa using isAbove.symm
      have earlier := Nat.lt_of_not_le (notBehind sameSteps.symm)
      rw [namesEq, List.getElem?_append_left earlier] at isNamed
      subst sameDirectory
      simpa [isPresent] using noneBefore otherName (List.mem_of_getElem? isNamed)

theorem find?_projectCandidates_eq_some_iff :
    (projectCandidates start).find? workspace.isFile = some path ↔
      ∃ rank, IsLeast (ranksPresent workspace start) rank ∧ candidate? start rank = some path := by
  have least_of_found : ∀ found,
      (projectCandidates start).find? workspace.isFile = some found →
        ∃ rank, IsLeast (ranksPresent workspace start) rank ∧
          candidate? start rank = some found := by
    intro found isFound
    obtain ⟨rank, isCandidate, least⟩ := exists_isLeast_of_find? isFound
    refine ⟨rank, ⟨⟨found, isCandidate, List.find?_some isFound⟩, ?_⟩, isCandidate⟩
    rintro other ⟨otherPath, otherCandidate, isPresent⟩
    exact least other otherPath otherCandidate isPresent
  constructor
  · exact least_of_found path
  · rintro ⟨rank, least, isCandidate⟩
    obtain ⟨present, presentCandidate, isPresent⟩ := least.1
    cases search : (projectCandidates start).find? workspace.isFile with
    | none =>
        rw [List.find?_eq_none] at search
        exact absurd isPresent
          (search present (mem_projectCandidates_of_candidate? presentCandidate))
    | some found =>
        obtain ⟨other, otherLeast, otherCandidate⟩ := least_of_found found search
        rw [otherLeast.unique least] at otherCandidate
        exact otherCandidate.symm.trans isCandidate

theorem find?_projectCandidates_eq_none_iff :
    (projectCandidates start).find? workspace.isFile = none ↔
      ranksPresent workspace start = ∅ := by
  constructor
  · intro search
    rw [List.find?_eq_none] at search
    refine Set.eq_empty_of_forall_notMem ?_
    rintro rank ⟨path, isCandidate, isPresent⟩
    exact search path (mem_projectCandidates_of_candidate? isCandidate) isPresent
  · intro isEmpty
    rw [Option.eq_none_iff_forall_ne_some]
    intro path search
    obtain ⟨rank, least, -⟩ := find?_projectCandidates_eq_some_iff.mp search
    exact (Set.mem_empty_iff_false rank).mp (isEmpty ▸ least.1)

/-! ## The choice -/

theorem choose_eq_project_iff {userDirectory : Option Path} :
    choose workspace none start userDirectory = .project path ↔
      ∃ rank, IsLeast (ranksPresent workspace start) rank ∧ candidate? start rank = some path := by
  rw [← find?_projectCandidates_eq_some_iff, choose]
  cases (projectCandidates start).find? workspace.isFile with
  | some found => simp
  | none =>
      dsimp only
      split <;> simp

/-! ## Other trees -/

variable (workspace start) in
/-- The file of a rank leads to none of some addresses, neither in the tree of a workspace nor in
another tree. -/
def Untouched (after : FileTree) (places : Set Address) (rank : Rank) : Prop :=
  ∀ path, candidate? start rank = some path →
    workspace.tree.Misses workspace.directory path places ∧
      after.Misses workspace.directory path places

section Changed

variable {after : FileTree} {places : Set Address} (differ : workspace.tree.DifferAt after places)

include differ

theorem mem_ranksPresent_iff_of_untouched {rank : Rank}
    (untouched : Untouched workspace start after places rank) :
    rank ∈ ranksPresent { workspace with tree := after } start ↔
      rank ∈ ranksPresent workspace start := by
  refine exists_congr fun path => and_congr_right fun isCandidate => ?_
  obtain ⟨misses, missesAfter⟩ := untouched path isCandidate
  rw [Workspace.isFile, Workspace.isFile, differ.isFile_eq misses missesAfter]

/-- A file that is there holds if none of a smaller rank was there and these are untouched. -/
theorem choose_eq_of_untouched {rank : Rank} (isCandidate : candidate? start rank = some path)
    (isPresent : Workspace.isFile { workspace with tree := after } path = true)
    (noneNearer : ∀ nearer < rank, nearer ∉ ranksPresent workspace start)
    (untouched : ∀ nearer < rank, Untouched workspace start after places nearer)
    (userDirectory : Option Path) :
    choose { workspace with tree := after } none start userDirectory = .project path := by
  refine choose_eq_project_iff.mpr ⟨rank, ⟨⟨path, isCandidate, isPresent⟩, ?_⟩, isCandidate⟩
  intro other otherPresent
  by_contra notBehind
  have isNearer := lt_of_not_ge notBehind
  rw [mem_ranksPresent_iff_of_untouched differ (untouched other isNearer)] at otherPresent
  exact noneNearer other isNearer otherPresent

end Changed

/-! ## From the directory at an address -/

/-- Where the file of a rank stands, as seen from the directory at an address. -/
def ownAddress? (home : Address) (rank : Rank) : Option Address :=
  if (ofLex rank).1 ≤ home.length then
    projectNames[(ofLex rank).2]?.map fun name =>
      home.take (home.length - (ofLex rank).1) ++ [name]
  else none

variable {home : Address} {rank : Rank}

theorem are_names_projectNames : ∀ name ∈ projectNames, Path.IsName name := by
  decide +kernel

theorem candidate?_pathOf (areNames : ∀ name ∈ home, Path.IsName name) :
    candidate? (FileTree.pathOf home) rank = (ownAddress? home rank).map FileTree.pathOf := by
  rw [candidate?, ownAddress?, FileTree.above?_pathOf areNames]
  split
  next within =>
    rw [Option.bind_some, Option.map_map]
    cases isNamed : projectNames[(ofLex rank).2]? with
    | none => rfl
    | some name =>
        have isName := are_names_projectNames name (List.mem_of_getElem? isNamed)
        have noEmpty : "" ∉ home.take (home.length - (ofLex rank).1) :=
          fun member => (areNames "" (List.mem_of_mem_take member)).ne_empty rfl
        have relative := Path.isAbsolute_names (by simpa using isName : ∀ other ∈ [name],
          Path.IsName other)
        exact congrArg some (FileTree.pathOf_join noEmpty (List.cons_ne_nil name []) relative)
  next => rfl

/-- A file of a project that is no link and stands elsewhere is untouched. -/
theorem untouched_of_no_link (wellFormed : workspace.tree.WellFormed)
    (connected : workspace.tree.Connected) {after : FileTree} {places : Set Address}
    (differ : workspace.tree.DifferAt after places)
    (isDirectory : workspace.tree.isDirectoryAt home = true)
    (own : ∀ address, ownAddress? home rank = some address → address ∉ places ∧
      ∀ target, workspace.tree.get? address ≠ some (.link target)) :
    Untouched workspace (FileTree.pathOf home) after places rank := by
  have atHome := FileTree.isDirectoryAt_iff.mp isDirectory
  have areNames := FileTree.are_names_of_get? wellFormed atHome
  intro path isCandidate
  rw [candidate?_pathOf areNames, Option.map_eq_some_iff] at isCandidate
  obtain ⟨address, isOwn, rfl⟩ := isCandidate
  obtain ⟨elsewhere, noLink⟩ := own address isOwn
  simp only [ownAddress?, Option.ite_none_right_eq_some, Option.map_eq_some_iff] at isOwn
  obtain ⟨-, name, isNamed, rfl⟩ := isOwn
  generalize upTo : home.length - (ofLex rank).1 = number at elsewhere noLink ⊢
  have isName := are_names_projectNames name (List.mem_of_getElem? isNamed)
  have aboveNames : ∀ other ∈ home.take number, Path.IsName other :=
    fun other member => areNames other (List.mem_of_mem_take member)
  have atAbove : workspace.tree.get? (home.take number) = some .directory := by
    by_cases farther : home.drop number = []
    · rw [← List.take_append_drop number home, farther, List.append_nil] at atHome
      exact atHome
    · rw [← List.take_append_drop number home] at atHome
      exact FileTree.isDirectoryAt_iff.mp (connected.isDirectoryAt_of_append atHome farther)
  have leadsAbove : workspace.tree.walkTo false FileTree.linkBudget [] (home.take number) =
      .ok (home.take number) :=
    connected.walkTo_names aboveNames atAbove (by simp) FileTree.linkBudget
  constructor
  · intro place leads
    rw [FileTree.eq_of_resolve_pathOf isName leadsAbove noLink leads]
    exact elsewhere
  · intro place leads
    have notPlace := differ.notMem_of_bytes?_eq_none atAbove rfl
    have noLinkAfter : ∀ target,
        after.get? (home.take number ++ [name]) ≠ some (.link target) := by
      rw [differ.get?_eq _ elsewhere]
      exact noLink
    have leadsAfter := differ.walkTo_of (absurd · notPlace) leadsAbove
    rw [FileTree.eq_of_resolve_pathOf isName leadsAfter noLinkAfter leads]
    exact elsewhere

/-! ## Targets that are files -/

/-- The search for a target that is a file begins where that for its directory begins. -/
theorem searchStart_of_file (wellFormed : workspace.tree.WellFormed)
    (connected : workspace.tree.Connected) {target parent : Path}
    (isFile : workspace.isFile target = true) (isParent : target.parent? = some parent) :
    searchStart workspace target = searchStart workspace parent := by
  have noFile : workspace.isFile parent = false := by
    rw [Bool.eq_false_iff]
    intro parentIsFile
    obtain ⟨address, bytes, leads, atFile⟩ := FileTree.isFile_iff.mp isFile
    obtain ⟨place, others, parentLeads, atPlace⟩ := FileTree.isFile_iff.mp parentIsFile
    exact connected.isFile_parent_eq_false wellFormed leads atFile isParent parentLeads atPlace
  rw [searchStart, searchStart, isFile, noFile, if_pos rfl, if_neg Bool.false_ne_true, isParent,
    Option.getD_some]

/-! ## What holds -/

/-- How the configuration is chosen for work in a directory, and what the choice depends on. -/
structure ChosenByRank (workspace : Workspace) (start : Path) (userDirectory : Option Path) :
    Prop where
  given_holds : ∀ path, choose workspace (some path) start userDirectory = .given path
  project_iff : ∀ path, choose workspace none start userDirectory = .project path ↔
    ∃ rank, IsLeast (ranksPresent workspace start) rank ∧ candidate? start rank = some path
  user_iff : ∀ path, choose workspace none start userDirectory = .user path ↔
    ranksPresent workspace start = ∅ ∧ userDirectory.map (·.child userName) = some path ∧
      workspace.isFile path = true
  defaults_iff : choose workspace none start userDirectory = .defaults ↔
    ranksPresent workspace start = ∅ ∧
      ∀ directory ∈ userDirectory, workspace.isFile (directory.child userName) = false
  /-- Files made or deleted where no file up to the chosen one leads do not change the choice. -/
  stable : ∀ rank path after places, IsLeast (ranksPresent workspace start) rank →
    candidate? start rank = some path → workspace.tree.DifferAt after places →
      (∀ nearer ≤ rank, Untouched workspace start after places nearer) →
        choose { workspace with tree := after } none start userDirectory = .project path
  /-- A file made at a smaller rank is chosen. -/
  redirected : ∀ chosen rank path after places, IsLeast (ranksPresent workspace start) chosen →
    rank < chosen → candidate? start rank = some path → workspace.tree.DifferAt after places →
      (∀ nearer < rank, Untouched workspace start after places nearer) →
        Workspace.isFile { workspace with tree := after } path = true →
          choose { workspace with tree := after } none start userDirectory = .project path
  /-- As seen from a directory, a file leads elsewhere only if it is a link. -/
  untouched : ∀ home rank after places, start = FileTree.pathOf home →
    workspace.tree.isDirectoryAt home = true → workspace.tree.DifferAt after places →
      (∀ address, ownAddress? home rank = some address → address ∉ places ∧
        ∀ target, workspace.tree.get? address ≠ some (.link target)) →
          Untouched workspace start after places rank
  of_file : ∀ explicit target parent, workspace.isFile target = true →
    target.parent? = some parent →
      ofTarget workspace explicit target = ofTarget workspace explicit parent

/-- The file that is named holds; else, of the files of the project that are there, the one of least
rank, then that of the user, then the defaults. -/
theorem chosen_by_rank (wellFormed : workspace.tree.WellFormed)
    (connected : workspace.tree.Connected) (start : Path) (userDirectory : Option Path) :
    ChosenByRank workspace start userDirectory := by
  constructor
  case given_holds => exact fun path => rfl
  case project_iff => exact fun path => choose_eq_project_iff
  case user_iff =>
    intro path
    rw [← find?_projectCandidates_eq_none_iff, ← Option.filter_eq_some_iff, choose]
    cases (projectCandidates start).find? workspace.isFile with
    | some found => simp
    | none => cases (userDirectory.map (·.child userName)).filter workspace.isFile <;> simp
  case defaults_iff =>
    rw [← find?_projectCandidates_eq_none_iff, choose]
    cases (projectCandidates start).find? workspace.isFile with
    | some found => simp
    | none =>
        cases userDirectory with
        | none => simp
        | some directory =>
            cases isFile : workspace.isFile (directory.child userName) <;>
              simp [Option.filter_some, isFile]
  case stable =>
    intro rank path after places least isCandidate differ untouched
    obtain ⟨present, presentCandidate, isPresent⟩ :=
      (mem_ranksPresent_iff_of_untouched differ (untouched rank le_rfl)).mpr least.1
    obtain rfl := Option.some.inj (isCandidate.symm.trans presentCandidate)
    refine choose_eq_of_untouched differ isCandidate isPresent ?_ ?_ userDirectory
    · exact fun nearer isNearer isThere => not_le_of_gt isNearer (least.2 isThere)
    · exact fun nearer isNearer => untouched nearer isNearer.le
  case redirected =>
    intro chosen rank path after places least isNearer isCandidate differ untouched isPresent
    refine choose_eq_of_untouched differ isCandidate isPresent ?_ untouched userDirectory
    exact fun nearer stillNearer isThere =>
      not_le_of_gt (stillNearer.trans isNearer) (least.2 isThere)
  case untouched =>
    rintro home rank after places rfl isDirectory differ own
    exact untouched_of_no_link wellFormed connected differ isDirectory own
  case of_file =>
    intro explicit target parent isFile isParent
    rw [ofTarget, ofTarget, searchStart_of_file wellFormed connected isFile isParent]

/-! ## A link to a file that is not there -/

/-- A configured project, and a directory in it with a link to a configuration above the project
that is not there. -/
def linkedWorkspace : Workspace where
  tree := ⟨[(["p"], .directory), (["p", "trimlint.toml"], .file (Text.encode [])),
    (["p", "q"], .directory),
    (["p", "q", "trimlint.toml"], .link ⟨["..", "..", "trimlint.toml"]⟩)]⟩
  directory := ["p"]

theorem wellFormed_linkedWorkspace : linkedWorkspace.tree.WellFormed := by
  decide +kernel

theorem connected_linkedWorkspace : linkedWorkspace.tree.Connected := by
  decide +kernel

/-- The path of the link. -/
def linkPath : Path := ⟨["", "p", "q", "trimlint.toml"]⟩

/-- The path of the configuration of the project. -/
def configuredPath : Path := ⟨["", "p", "trimlint.toml"]⟩

/-- The path of the configuration that is not there. -/
def missingPath : Path := ⟨["", "trimlint.toml"]⟩

theorem isFile_configuredPath : linkedWorkspace.isFile configuredPath = true := by
  have accepted : FileTree.checkSpelling configuredPath = .ok () := by
    rw [FileTree.checkSpelling_eq_ok_iff]
    decide +kernel
  have way : linkedWorkspace.tree.walkTo false FileTree.linkBudget [] ["", "p", "trimlint.toml"] =
      .ok ["p", "trimlint.toml"] := by
    simp +decide [FileTree.walkTo, FileTree.get?, List.lookup_cons, linkedWorkspace]
  exact FileTree.isFile_iff.mpr
    ⟨_, Text.encode [], FileTree.resolve_eq_ok_iff.mpr ⟨accepted, way⟩, rfl⟩

theorem chosen_by_rank_sample :
    linkedWorkspace.tree.WellFormed ∧ linkedWorkspace.tree.Connected ∧
      IsLeast (ranksPresent linkedWorkspace ⟨["", "p"]⟩) (toLex (0, 0)) ∧
      choose { linkedWorkspace with
          tree := linkedWorkspace.tree.put ["p", ".trimlint.toml"] (.file (Text.encode [])) }
        none ⟨["", "p"]⟩ none = .project ⟨["", "p", "trimlint.toml"]⟩ := by
  have chosen := chosen_by_rank wellFormed_linkedWorkspace connected_linkedWorkspace
    ⟨["", "p"]⟩ none
  have isCandidate : candidate? ⟨["", "p"]⟩ (toLex (0, 0)) =
      some ⟨["", "p", "trimlint.toml"]⟩ := by decide +kernel
  have least : IsLeast (ranksPresent linkedWorkspace ⟨["", "p"]⟩) (toLex (0, 0)) :=
    ⟨⟨_, isCandidate, isFile_configuredPath⟩, fun _ _ => bot_le⟩
  have nothingThere : linkedWorkspace.tree.HoldsNoOther ["p", ".trimlint.toml"] := by
    intro entry found
    have missing : linkedWorkspace.tree.get? ["p", ".trimlint.toml"] = none := by decide +kernel
    cases missing.symm.trans found
  have differ := FileTree.differAt_put (List.cons_ne_nil _ _) nothingThere (Text.encode [])
  refine ⟨wellFormed_linkedWorkspace, connected_linkedWorkspace, least,
    chosen.stable _ _ _ _ least isCandidate differ ?_⟩
  intro nearer isNearer
  obtain rfl : nearer = toLex (0, 0) := le_antisymm isNearer bot_le
  refine chosen.untouched ["p"] _ _ _ rfl (by decide +kernel) differ ?_
  intro address isOwn
  have ownPlace : ownAddress? ["p"] (toLex (0, 0)) = some ["p", "trimlint.toml"] := by
    decide +kernel
  obtain rfl := Option.some.inj (ownPlace.symm.trans isOwn)
  have isFile : linkedWorkspace.tree.get? ["p", "trimlint.toml"] =
      some (.file (Text.encode [])) := rfl
  refine ⟨by decide, fun target isLink => ?_⟩
  cases isFile.symm.trans isLink

/-- From the directory of the link the configuration of the project is chosen. -/
theorem find?_linkedWorkspace :
    (projectCandidates ⟨["", "p", "q"]⟩).find? linkedWorkspace.isFile = some configuredPath := by
  have noFile : linkedWorkspace.isFile linkPath = false := by
    have lost : linkedWorkspace.tree.walkTo false FileTree.linkBudget []
        ["", "p", "q", "trimlint.toml"] = .error .notFound := by
      simp +decide [FileTree.walkTo, FileTree.get?, List.lookup_cons, linkedWorkspace,
        FileTree.linkBudget]
    exact FileTree.isFile_eq_false lost
  have noOther : linkedWorkspace.isFile ⟨["", "p", "q", ".trimlint.toml"]⟩ = false := by
    have lost : linkedWorkspace.tree.walkTo false FileTree.linkBudget []
        ["", "p", "q", ".trimlint.toml"] = .error .notFound := by
      simp +decide [FileTree.walkTo, FileTree.get?, List.lookup_cons, linkedWorkspace]
    exact FileTree.isFile_eq_false lost
  have candidates : projectCandidates ⟨["", "p", "q"]⟩ = [linkPath,
      ⟨["", "p", "q", ".trimlint.toml"]⟩, configuredPath, ⟨["", "p", ".trimlint.toml"]⟩,
      missingPath, ⟨["", ".trimlint.toml"]⟩] := by
    decide +kernel
  rw [candidates]
  simp [noFile, noOther, isFile_configuredPath]

/-- A file of a greater rank that is made is chosen where a file of a smaller rank is a link to
it. -/
theorem not_stable_under_creation :
    ¬ ∀ (workspace : Workspace) (start path made : Path) (rank farther : Rank)
      (bytes : ByteArray) (after : FileTree), workspace.tree.WellFormed →
        workspace.tree.Connected → IsLeast (ranksPresent workspace start) rank →
          candidate? start rank = some path → rank < farther →
            candidate? start farther = some made → workspace.isFile made = false →
              workspace.tree.write workspace.directory made bytes = .ok after →
                choose { workspace with tree := after } none start none = .project path := by
  intro stable
  let start : Path := ⟨["", "p", "q"]⟩
  let after := linkedWorkspace.tree.put ["trimlint.toml"] (.file (Text.encode []))
  obtain ⟨rank, least, isLeastCandidate⟩ :=
    find?_projectCandidates_eq_some_iff.mp find?_linkedWorkspace
  have isCandidate : candidate? start (toLex (1, 0)) = some configuredPath := by decide +kernel
  have isNearer : rank < toLex (2, 0) :=
    (least.2 ⟨configuredPath, isCandidate, isFile_configuredPath⟩).trans_lt (by decide)
  have madeCandidate : candidate? start (toLex (2, 0)) = some missingPath := by decide +kernel
  have accepted : ∀ path ∈ [linkPath, missingPath], FileTree.checkSpelling path = .ok () := by
    simp only [FileTree.checkSpelling_eq_ok_iff]
    decide +kernel
  have notThere : linkedWorkspace.isFile missingPath = false := by
    have lost : linkedWorkspace.tree.walkTo false FileTree.linkBudget [] ["", "trimlint.toml"] =
        .error .notFound := by
      simp +decide [FileTree.walkTo, FileTree.get?, List.lookup_cons, linkedWorkspace]
    exact FileTree.isFile_eq_false lost
  have written : linkedWorkspace.tree.write linkedWorkspace.directory missingPath
      (Text.encode []) = .ok after := by
    have way : linkedWorkspace.tree.walkTo true FileTree.linkBudget [] ["", "trimlint.toml"] =
        .ok ["trimlint.toml"] := by
      simp +decide [FileTree.walkTo, FileTree.get?, List.lookup_cons, linkedWorkspace]
    have noDirectory : linkedWorkspace.tree.isDirectoryAt ["trimlint.toml"] = false := rfl
    rw [FileTree.write, accepted missingPath (by simp)]
    change (linkedWorkspace.tree.walkTo true FileTree.linkBudget [] ["", "trimlint.toml"] >>= _) = _
    rw [way]
    simp only [bind, Except.bind, noDirectory, Bool.false_eq_true, if_false]
    rfl
  have stillChosen := stable linkedWorkspace start configuredPath missingPath rank
    (toLex (2, 0)) (Text.encode []) after wellFormed_linkedWorkspace connected_linkedWorkspace
    least isLeastCandidate isNearer madeCandidate notThere written
  -- The link leads to the new file, so that it has the least rank of all.
  have isLinked : Workspace.isFile { linkedWorkspace with tree := after } linkPath = true := by
    have way : after.walkTo false FileTree.linkBudget [] ["", "p", "q", "trimlint.toml"] =
        .ok ["trimlint.toml"] := by
      simp +decide [FileTree.walkTo, FileTree.get?, List.lookup_cons, linkedWorkspace, after,
        FileTree.linkBudget, FileTree.put, FileTree.setEntry]
    exact FileTree.isFile_iff.mpr ⟨_, Text.encode [],
      FileTree.resolve_eq_ok_iff.mpr ⟨accepted linkPath (by simp), way⟩, rfl⟩
  obtain ⟨chosen, leastAfter, chosenCandidate⟩ := choose_eq_project_iff.mp stillChosen
  have linkCandidate : candidate? start (toLex (0, 0)) = some linkPath := by decide +kernel
  obtain rfl : chosen = toLex (0, 0) :=
    le_antisymm (leastAfter.2 ⟨linkPath, linkCandidate, isLinked⟩) bot_le
  rw [linkCandidate] at chosenCandidate
  exact absurd chosenCandidate (by decide)

end CommandLine.ConfigOrigin
end TidyLines
