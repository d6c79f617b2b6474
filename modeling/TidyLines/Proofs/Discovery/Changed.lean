import TidyLines.Proofs.Discovery.Stability
import TidyLines.Proofs.FileTree.Differing

/-!
# Searches in a tree whose files have changed

While time passes, files get new bytes and go away.  As long as a search consults none of these
(`Search.FilesChange`), it finds those that are left, with the bytes that they hold by then
(`Search.find_of_filesChange`).  Rewriting and deleting files are two cases; here both may have
happened.
-/

namespace TidyLines

/-- A found file as it is in a later tree, if it is still there. -/
def FoundFile.reread? (file : FoundFile) (tree : FileTree) : Option FoundFile :=
  ((tree.get? file.address).bind Entry.bytes?).map fun bytes => { file with bytes }

theorem FoundFile.reread?_eq_some_iff {file later : FoundFile} {tree : FileTree} :
    file.reread? tree = some later ↔ tree.get? file.address = some (.file later.bytes) ∧
      later.path = file.path ∧ later.address = file.address := by
  obtain ⟨path, address, bytes⟩ := later
  rw [reread?, Option.map_eq_some_iff]
  simp only [FoundFile.mk.injEq]
  constructor
  · rintro ⟨held, isHeld, rfl, rfl, rfl⟩
    obtain ⟨entry, found, isFile⟩ := Option.bind_eq_some_iff.mp isHeld
    cases entry with
    | file others => exact ⟨found.trans (by simpa [Entry.bytes?] using isFile), rfl, rfl⟩
    | directory => cases isFile
    | link target => cases isFile
  · rintro ⟨found, rfl, rfl⟩
    exact ⟨bytes, by rw [found]; rfl, rfl, rfl, rfl⟩

namespace Search

variable {search : Search} {workspace : Workspace} {other : FileTree} {root : Address}

/-- Another tree is that of a workspace but for files with other bytes and files that are gone, none
of which a search consults. -/
structure FilesChange (search : Search) (workspace : Workspace) (other : FileTree) : Prop where
  wellFormed : other.WellFormed
  directoriesOf_eq : Ignore.directoriesOf other = Ignore.directoriesOf workspace.tree
  were_files : ∀ address, other.get? address ≠ workspace.tree.get? address →
    ∃ bytes, workspace.tree.get? address = some (.file bytes)
  holds_no_other : ∀ address, other.get? address ≠ workspace.tree.get? address →
    other.HoldsNoOther address
  not_consulted : ∀ address, other.get? address ≠ workspace.tree.get? address →
    ¬ search.Consults workspace address

namespace FilesChange

variable (change : search.FilesChange workspace other)

include change

theorem differAt : workspace.tree.DifferAt other
    {address | other.get? address ≠ workspace.tree.get? address} where
  get?_eq _ same := not_not.mp same
  files_before address differs entry found := by
    obtain ⟨bytes, atFile⟩ := change.were_files address differs
    exact ⟨bytes, Option.some.inj (found.symm.trans atFile)⟩
  files_after := change.holds_no_other

theorem was_file {address : Address} {bytes : ByteArray}
    (found : other.get? address = some (.file bytes)) :
    ∃ others, workspace.tree.get? address = some (.file others) := by
  by_cases same : other.get? address = workspace.tree.get? address
  · exact ⟨bytes, same.symm.trans found⟩
  · exact change.were_files address same

theorem readsAlike {directory : Address} {path : Path}
    (consulted : ∀ address, workspace.tree.resolve directory path = .ok address →
      search.Consults workspace address) : other.ReadsAlike workspace.tree directory path :=
  change.differAt.readsAlike change.were_files fun address leads differs =>
    change.not_consulted address differs (consulted address leads)

theorem keepsConsulted : search.KeepsConsulted workspace other where
  directoriesOf_eq := change.directoriesOf_eq
  readsAlike _ _ consulted := change.readsAlike consulted

theorem filesBelow_eq (wellFormed : workspace.tree.WellFormed)
    (leads : workspace.tree.resolve workspace.directory search.root = .ok root)
    (walks : workspace.isFile search.root = false) :
    search.filesBelow { workspace with tree := other } root =
      (search.filesBelow workspace root).filterMap fun file => file.reread? other := by
  have sameWays := admits_congr change.keepsConsulted leads walks
  have sorted := search.pairwise_order_lt_filesBelow wellFormed root
  have wellFormedLater : ({ workspace with tree := other } : Workspace).tree.WellFormed :=
    change.wellFormed
  have sortedLater := search.pairwise_order_lt_filesBelow wellFormedLater root
  refine eq_of_pairwise_order_lt sortedLater (List.pairwise_filterMap.mpr (sorted.imp ?_)) ?_
  · intro first second before later isLater laterSecond isLaterSecond
    rw [(FoundFile.reread?_eq_some_iff.mp isLater).2.1,
      (FoundFile.reread?_eq_some_iff.mp isLaterSecond).2.1, before]
  intro file
  rw [List.mem_filterMap, mem_filesBelow_iff, search.mem_walked_iff wellFormedLater]
  simp only [mem_filesBelow_iff, search.mem_walked_iff wellFormed, sameWays,
    change.differAt.leadsThrough_eq, FoundFile.reread?_eq_some_iff]
  constructor
  · rintro ⟨⟨inOther, names, reaches, admitted⟩, chosen⟩
    obtain ⟨bytes, inTree⟩ := change.was_file inOther
    exact ⟨{ file with bytes }, ⟨⟨inTree, names,
      ⟨reaches.nonempty, reaches.are_names, reaches.path_eq, reaches.address_eq⟩, admitted⟩,
      chosen⟩, inOther, rfl, rfl⟩
  · rintro ⟨original, ⟨⟨inTree, names, reaches, admitted⟩, chosen⟩, inOther, samePath, sameAddress⟩
    rw [← sameAddress] at inOther
    rw [← samePath] at chosen
    exact ⟨⟨inOther, names, ⟨reaches.nonempty, reaches.are_names, samePath.trans reaches.path_eq,
      sameAddress.trans reaches.address_eq⟩, admitted⟩, chosen⟩

theorem leads_of_isDirectoryAt {path : Path}
    (leads : workspace.tree.resolve workspace.directory path = .ok root)
    (isDirectory : workspace.tree.isDirectoryAt root = true) :
    other.resolve workspace.directory path = .ok root ∧ other.isDirectoryAt root = true := by
  have kept := change.differAt.notMem_of_bytes?_eq_none
    (FileTree.isDirectoryAt_iff.mp isDirectory) rfl
  exact ⟨(change.differAt.resolve_eq_ok_iff kept workspace.directory path).mpr leads,
    change.differAt.isDirectoryAt_of isDirectory⟩

end FilesChange

/-- A search of a directory finds the files that are left, with the bytes that they hold by then. -/
theorem find_of_filesChange (change : search.FilesChange workspace other)
    (wellFormed : workspace.tree.WellFormed)
    (leads : workspace.tree.resolve workspace.directory search.root = .ok root)
    (isDirectory : workspace.tree.isDirectoryAt root = true) :
    search.find { workspace with tree := other } =
      (search.find workspace).map (List.filterMap fun file => file.reread? other) := by
  have walks := Workspace.isFile_of_isDirectoryAt leads isDirectory
  obtain ⟨leadsLater, isDirectoryLater⟩ := change.leads_of_isDirectoryAt leads isDirectory
  have walksLater : { workspace with tree := other }.isFile search.root = false :=
    Workspace.isFile_of_isDirectoryAt leadsLater isDirectoryLater
  rw [search.find_of_walks leadsLater walksLater, search.find_of_walks leads walks,
    change.filesBelow_eq wellFormed leads walks]
  simp only [complaintsAbove_congr change.keepsConsulted leads walks]
  cases Ignore.complaintsAbove workspace.tree search.respectIgnoreFiles root <;> rfl

end Search
end TidyLines
