import TidyLines.Proofs.Discovery.Opening

/-!
# Searches with two spellings of one root

A search spells the paths of its files with the root in front.  As long as patterns and the rules of
the user judge the two spellings of each path alike (`Search.Respells`), a search with another
spelling of its root finds the same files in the same order (`Search.Respells.find_eq`).  If no
spelling is too long or both are, both paths of a file lead to it (`Search.Respells.resolve_eq`).
-/

namespace TidyLines.Search

variable (search other : Search) {workspace : Workspace} {root : Address}

/-- Another search of the same directory spells its root in another way, and does not select other
files for that. -/
structure Respells (workspace : Workspace) (root : Address) : Prop where
  leads : workspace.tree.resolve workspace.directory search.root = .ok root
  other_leads : workspace.tree.resolve workspace.directory other.root = .ok root
  isDirectory : workspace.tree.isDirectoryAt root = true
  components_eq : other.root.components = search.root.components
  respectIgnoreFiles_eq : other.respectIgnoreFiles = search.respectIgnoreFiles
  included_eq : other.included = search.included
  checkSpelling_eq : ∀ names bytes,
    workspace.tree.get? (root ++ names) = some (.file bytes) →
      FileTree.checkSpelling (other.pathOf names) = FileTree.checkSpelling (search.pathOf names)
  excludes_iff : ∀ names bytes, workspace.tree.get? (root ++ names) = some (.file bytes) →
    (other.excludes (other.pathOf names) = true ↔ search.excludes (search.pathOf names) = true)
  judgeUser?_eq : ∀ names isDirectory,
    (search.ignoreContext workspace).judgeUser? (other.pathOf names).text.toList isDirectory =
      (search.ignoreContext workspace).judgeUser? (search.pathOf names).text.toList isDirectory

/-- A found file with its path spelled in the way of a search. -/
def respell (root : Address) (file : FoundFile) : FoundFile :=
  { file with path := search.pathOf (file.address.drop root.length) }

theorem relativeText_pathOf {names : List String} (nonempty : names ≠ [])
    (areNames : ∀ name ∈ names, Path.IsName name) :
    search.relativeText (search.pathOf names) = (Path.mk names).text.toList := by
  rw [relativeText, pathOf, search.root.stripPrefix?_join nonempty areNames]
  rfl

theorem relativeText_pathOf_eq {names : List String} (nonempty : names ≠ [])
    (areNames : ∀ name ∈ names, Path.IsName name) :
    other.relativeText (other.pathOf names) = search.relativeText (search.pathOf names) := by
  rw [other.relativeText_pathOf nonempty areNames, search.relativeText_pathOf nonempty areNames]

theorem components_pathOf {names : List String} (nonempty : names ≠ [])
    (areNames : ∀ name ∈ names, Path.IsName name) :
    (search.pathOf names).components = search.root.components ++ names.map .name :=
  search.root.components_join nonempty areNames

variable {search other}

theorem Reaches.respell_eq {names : List String} {file : FoundFile}
    (reaches : search.Reaches root names file) :
    other.respell root file = { file with path := other.pathOf names } := by
  rw [respell, reaches.address_eq, List.drop_left]

theorem Reaches.respell {names : List String} {file : FoundFile}
    (reaches : search.Reaches root names file) :
    other.Reaches root names (other.respell root file) where
  nonempty := reaches.nonempty
  are_names := reaches.are_names
  path_eq := by rw [reaches.respell_eq]
  address_eq := reaches.address_eq

namespace Respells

variable (respells : search.Respells other workspace root)

include respells

theorem ignoreContext_eq : other.ignoreContext workspace = search.ignoreContext workspace := by
  rw [ignoreContext, ignoreContext, respells.respectIgnoreFiles_eq]

theorem admits_eq (names : List String) :
    other.admits (other.ignoreContext workspace) root names =
      search.admits (search.ignoreContext workspace) root names := by
  rw [respells.ignoreContext_eq, admits, admits]
  simp only [Ignore.Context.admits, Ignore.Context.judge?, respells.judgeUser?_eq]

theorem walked_eq :
    other.walked workspace root = (search.walked workspace root).map (other.respell root) := by
  rw [walked, walked, List.map_filterMap]
  apply List.filterMap_congr
  rintro ⟨names, bytes⟩ -
  simp only [respells.admits_eq]
  split
  · simp [respell]
  · rfl

theorem components_path_eq {names : List String} {file : FoundFile}
    (reaches : search.Reaches root names file) :
    (other.respell root file).path.components = file.path.components := by
  have otherReaches : other.Reaches root names (other.respell root file) := reaches.respell
  rw [otherReaches.path_eq, reaches.path_eq,
    other.components_pathOf reaches.nonempty reaches.are_names,
    search.components_pathOf reaches.nonempty reaches.are_names, respells.components_eq]

theorem includes_eq {names : List String} (nonempty : names ≠ [])
    (areNames : ∀ name ∈ names, Path.IsName name) :
    other.includes (other.pathOf names) = search.includes (search.pathOf names) := by
  rw [includes, includes, respells.included_eq,
    search.relativeText_pathOf_eq other nonempty areNames]

theorem filesBelow_eq (wellFormed : workspace.tree.WellFormed) :
    other.filesBelow workspace root =
      (search.filesBelow workspace root).map (other.respell root) := by
  have sameChoice : ∀ file ∈ search.walked workspace root,
      (!other.excludes (other.respell root file).path &&
          other.includes (other.respell root file).path) =
        (!search.excludes file.path && search.includes file.path) := by
    intro file member
    obtain ⟨inTree, names, reaches⟩ := search.exists_of_mem_walked wellFormed member
    rw [reaches.address_eq] at inTree
    have sameExclusion := Bool.eq_iff_iff.mpr (respells.excludes_iff names file.bytes inTree)
    rw [reaches.respell_eq, reaches.path_eq, sameExclusion,
      respells.includes_eq reaches.nonempty reaches.are_names]
  rw [filesBelow, filesBelow, respells.walked_eq, List.filter_map]
  have sameFilter := List.filter_congr sameChoice
  rw [Function.comp_def, sameFilter]
  symm
  apply List.map_mergeSort
  intro first firstMember second secondMember
  obtain ⟨-, names, reaches⟩ :=
    search.exists_of_mem_walked wellFormed (List.mem_filter.mp firstMember).1
  obtain ⟨-, otherNames, otherReaches⟩ :=
    search.exists_of_mem_walked wellFormed (List.mem_filter.mp secondMember).1
  rw [inOrder, inOrder, Path.order, Path.order, respells.components_path_eq reaches,
    respells.components_path_eq otherReaches]

theorem exists_reaches_of_find (wellFormed : workspace.tree.WellFormed) {files : List FoundFile}
    (found : search.find workspace = .ok files) {file : FoundFile} (member : file ∈ files) :
    ∃ names, search.Reaches root names file := by
  obtain rfl := search.eq_filesBelow_of_find respells.leads respells.isDirectory found
  exact search.exists_reaches wellFormed member

/-- Both searches find the same files, or neither of them can walk. -/
theorem find_eq (wellFormed : workspace.tree.WellFormed) :
    other.find workspace = (search.find workspace).map (List.map (other.respell root)) := by
  have walks := Workspace.isFile_of_isDirectoryAt respells.leads respells.isDirectory
  have otherWalks := Workspace.isFile_of_isDirectoryAt respells.other_leads respells.isDirectory
  rw [search.find_of_walks respells.leads walks,
    other.find_of_walks respells.other_leads otherWalks, respells.respectIgnoreFiles_eq,
    respells.filesBelow_eq wellFormed]
  cases Ignore.complaintsAbove workspace.tree search.respectIgnoreFiles root <;> rfl

/-- A path leads to its file in both spellings, or it fails in both. -/
theorem resolve_eq (wellFormed : workspace.tree.WellFormed) {files : List FoundFile}
    (found : search.find workspace = .ok files) {file : FoundFile} (member : file ∈ files) :
    workspace.tree.resolve workspace.directory (other.respell root file).path =
      workspace.tree.resolve workspace.directory file.path := by
  obtain rfl := search.eq_filesBelow_of_find respells.leads respells.isDirectory found
  have isWalked := search.mem_walked_of_mem_filesBelow member
  have otherWalked : other.respell root file ∈ other.walked workspace root := by
    rw [respells.walked_eq]
    exact List.mem_map_of_mem isWalked
  obtain ⟨names, reaches, way⟩ := resolve_of_mem_walked wellFormed respells.leads isWalked
  obtain ⟨otherNames, otherReaches, otherWay⟩ :=
    resolve_of_mem_walked wellFormed respells.other_leads otherWalked
  obtain rfl : names = otherNames :=
    List.append_cancel_left (reaches.address_eq.symm.trans otherReaches.address_eq)
  have inTree := (search.exists_of_mem_walked wellFormed isWalked).1
  rw [reaches.address_eq] at inTree
  have sameSpelling := respells.checkSpelling_eq names file.bytes inTree
  rw [← reaches.path_eq, ← otherReaches.path_eq] at sameSpelling
  rw [way, otherWay, sameSpelling]
  rfl

end Respells

end TidyLines.Search
