import TidyLines.Proofs.Discovery.Opening
import TidyLines.Proofs.Discovery.Stability
import TidyLines.Proofs.List.StableSort

/-!
# Searches in a tree without some of its files

Deleting files that a search does not consult (`Search.Unread`) leaves all other files of a
directory to be found: they are admitted as before, and they come in the same order
(`Search.find_without`).
-/

namespace TidyLines

/-- A workspace without some of its files. -/
def Workspace.without (workspace : Workspace) (gone : List Address) : Workspace :=
  { workspace with tree := workspace.tree.without gone }

namespace Search

variable {search : Search} {workspace : Workspace} {gone : List Address} {root : Address}

/-- There are files at all of the addresses, none of which a search consults. -/
structure Unread (search : Search) (workspace : Workspace) (gone : List Address) : Prop where
  hasFilesAt : workspace.tree.HasFilesAt gone
  not_consulted : ∀ address ∈ gone, ¬ search.Consults workspace address

theorem Unread.keepsConsulted (unread : search.Unread workspace gone)
    (wellFormed : workspace.tree.WellFormed) :
    search.KeepsConsulted workspace (workspace.tree.without gone) where
  directoriesOf_eq := Ignore.directoriesOf_without wellFormed unread.hasFilesAt
  readsAlike _ _ consulted := FileTree.readsAlike_without unread.hasFilesAt
    fun address leads isGone => unread.not_consulted address isGone (consulted address leads)

theorem walked_without (unread : search.Unread workspace gone)
    (wellFormed : workspace.tree.WellFormed)
    (leads : workspace.tree.resolve workspace.directory search.root = .ok root)
    (walks : workspace.isFile search.root = false) :
    search.walked (workspace.without gone) root =
      (search.walked workspace root).filter fun file => file.address ∉ gone := by
  have sameWays := admits_congr (unread.keepsConsulted wellFormed) leads walks
  rw [walked, walked, Workspace.without, FileTree.filesBelow_without unread.hasFilesAt,
    List.filterMap_filter, List.filter_filterMap]
  apply List.filterMap_congr
  rintro ⟨names, bytes⟩ -
  simp only [sameWays]
  by_cases isGone : root ++ names ∈ gone <;>
    by_cases admitted : search.admits (search.ignoreContext workspace) root names = true <;>
      simp [Option.filter_some, isGone, admitted]

theorem filesBelow_without (unread : search.Unread workspace gone)
    (wellFormed : workspace.tree.WellFormed)
    (leads : workspace.tree.resolve workspace.directory search.root = .ok root)
    (walks : workspace.isFile search.root = false) :
    search.filesBelow (workspace.without gone) root =
      (search.filesBelow workspace root).filter fun file => file.address ∉ gone := by
  rw [filesBelow, filesBelow, walked_without unread wellFormed leads walks,
    StableSort.filter_mergeSort inOrder_trans inOrder_total, List.filter_comm]

/-- What leads to a directory still leads there. -/
theorem resolve_without (files : workspace.tree.HasFilesAt gone) {path : Path}
    (leads : workspace.tree.resolve workspace.directory path = .ok root)
    (isDirectory : workspace.tree.isDirectoryAt root = true) :
    (workspace.without gone).tree.resolve workspace.directory path = .ok root := by
  have kept : root ∉ gone := files.not_mem (FileTree.isDirectoryAt_iff.mp isDirectory) rfl
  exact (FileTree.resolve_without_eq_ok_iff files kept workspace.directory path).mpr leads

theorem isFile_without (files : workspace.tree.HasFilesAt gone) {path : Path}
    (leads : workspace.tree.resolve workspace.directory path = .ok root)
    (isDirectory : workspace.tree.isDirectoryAt root = true) :
    (workspace.without gone).isFile path = false :=
  Workspace.isFile_of_isDirectoryAt (resolve_without files leads isDirectory)
    ((FileTree.isDirectoryAt_without files root).trans isDirectory)

/-- The path of a file that is left leads where it led before. -/
theorem resolve_path_without (unread : search.Unread workspace gone)
    (wellFormed : workspace.tree.WellFormed)
    (leads : workspace.tree.resolve workspace.directory search.root = .ok root)
    (isDirectory : workspace.tree.isDirectoryAt root = true) {file : FoundFile}
    (isWalked : file ∈ search.walked workspace root) (kept : file.address ∉ gone) :
    (workspace.without gone).tree.resolve workspace.directory file.path =
      workspace.tree.resolve workspace.directory file.path := by
  have walks := Workspace.isFile_of_isDirectoryAt leads isDirectory
  have isWalkedLater : file ∈ search.walked (workspace.without gone) root := by
    rw [walked_without unread wellFormed leads walks, List.mem_filter]
    exact ⟨isWalked, by simpa using kept⟩
  exact resolve_eq_of_mem_walked wellFormed (wellFormed.without gone) leads
    (resolve_without unread.hasFilesAt leads isDirectory) isWalked isWalkedLater rfl rfl

/-- A search of a directory finds all files but those that are gone. -/
theorem find_without (unread : search.Unread workspace gone)
    (wellFormed : workspace.tree.WellFormed)
    (leads : workspace.tree.resolve workspace.directory search.root = .ok root)
    (isDirectory : workspace.tree.isDirectoryAt root = true) :
    search.find (workspace.without gone) =
      (search.find workspace).map (List.filter fun file => file.address ∉ gone) := by
  have walks := Workspace.isFile_of_isDirectoryAt leads isDirectory
  have sameComplaints : Ignore.complaintsAbove (workspace.without gone).tree
      search.respectIgnoreFiles root =
        Ignore.complaintsAbove workspace.tree search.respectIgnoreFiles root :=
    complaintsAbove_congr (unread.keepsConsulted wellFormed) leads walks
  rw [search.find_of_walks (resolve_without unread.hasFilesAt leads isDirectory)
      (isFile_without unread.hasFilesAt leads isDirectory),
    search.find_of_walks leads walks, sameComplaints,
    filesBelow_without unread wellFormed leads walks]
  cases Ignore.complaintsAbove workspace.tree search.respectIgnoreFiles root <;> rfl

end Search
end TidyLines
