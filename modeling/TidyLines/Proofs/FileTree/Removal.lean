import TidyLines.Proofs.FileTree.Differing

/-!
# Trees without some of their files

Deleting files leaves all ways through a tree as they are, except those that end at one of the files
(`FileTree.resolve_without_eq_ok_iff`).  What is read by other ways is the same as before
(`FileTree.readsAlike_without`).
-/

namespace TidyLines.FileTree

/-- A tree without what is at some addresses. -/
def without (tree : FileTree) (gone : List Address) : FileTree :=
  ⟨tree.entries.filter fun entry => !gone.contains entry.1⟩

/-- There are files at all of the addresses. -/
def HasFilesAt (tree : FileTree) (addresses : List Address) : Prop :=
  ∀ address ∈ addresses, ∃ bytes, tree.get? address = some (.file bytes)

variable {tree : FileTree} {gone : List Address}

theorem WellFormed.without (wellFormed : tree.WellFormed) (gone : List Address) :
    (tree.without gone).WellFormed := by
  have sublist : ((tree.without gone).entries.map Prod.fst).Sublist (tree.entries.map Prod.fst) :=
    List.filter_sublist.map _
  constructor
  · exact wellFormed.addresses_nodup.sublist sublist
  · exact fun listed => wellFormed.root_unlisted (sublist.subset listed)
  · exact fun address listed => wellFormed.names_are_names address (sublist.subset listed)

private theorem lookup_filter_not_mem (entries : List (Address × Entry)) (address : Address) :
    (entries.filter fun entry => !gone.contains entry.1).lookup address =
      if address ∈ gone then none else entries.lookup address := by
  induction entries with
  | nil => simp
  | cons first others ih =>
      obtain ⟨place, entry⟩ := first
      rw [List.filter_cons, List.lookup_cons]
      by_cases here : address = place
      · subst here
        by_cases isGone : address ∈ gone
        · rw [if_neg (by simp [isGone]), ih, if_pos isGone, if_pos isGone]
        · rw [if_pos (by simp [isGone]), List.lookup_cons, beq_self_eq_true, if_neg isGone]
      · have differs : (address == place) = false := beq_false_of_ne here
        rw [differs, ← ih]
        split
        · rw [List.lookup_cons, differs]
        · rfl

theorem HasFilesAt.not_mem (files : tree.HasFilesAt gone) {address : Address} {entry : Entry}
    (found : tree.get? address = some entry) (noFile : entry.bytes? = none) : address ∉ gone := by
  intro isGone
  obtain ⟨bytes, atFile⟩ := files address isGone
  cases found.symm.trans atFile
  cases noFile

theorem get?_without (files : tree.HasFilesAt gone) (address : Address) :
    (tree.without gone).get? address = if address ∈ gone then none else tree.get? address := by
  by_cases root : address = []
  · subst root
    have kept : [] ∉ gone := files.not_mem (if_pos rfl) rfl
    simp [get?, kept]
  · rw [get?, get?, if_neg root, if_neg root, without, lookup_filter_not_mem]

/-- Nothing is lost but the files. -/
theorem get?_without_of_not_mem (files : tree.HasFilesAt gone) {address : Address}
    (kept : address ∉ gone) : (tree.without gone).get? address = tree.get? address := by
  rw [get?_without files, if_neg kept]

theorem differAt_without (files : tree.HasFilesAt gone) :
    tree.DifferAt (tree.without gone) {address | address ∈ gone} where
  get?_eq _ kept := get?_without_of_not_mem files kept
  files_before address isGone entry found := by
    obtain ⟨bytes, atFile⟩ := files address isGone
    exact ⟨bytes, Option.some.inj (found.symm.trans atFile)⟩
  files_after address isGone entry found := by
    rw [get?_without files, if_pos (show address ∈ gone from isGone)] at found
    cases found

theorem isDirectoryAt_without (files : tree.HasFilesAt gone) (address : Address) :
    (tree.without gone).isDirectoryAt address = tree.isDirectoryAt address :=
  (differAt_without files).isDirectoryAt_eq address

/-! ## Ways through the tree -/

theorem resolve_without_eq_ok_iff (files : tree.HasFilesAt gone) {address : Address}
    (kept : address ∉ gone) (directory : Address) (path : Path) :
    (tree.without gone).resolve directory path = .ok address ↔
      tree.resolve directory path = .ok address :=
  (differAt_without files).resolve_eq_ok_iff kept directory path

/-- What does not lead to one of the files that are gone reads as before. -/
theorem readsAlike_without (files : tree.HasFilesAt gone) {directory : Address} {path : Path}
    (kept : ∀ address, tree.resolve directory path = .ok address → address ∉ gone) :
    (tree.without gone).ReadsAlike tree directory path :=
  (differAt_without files).readsAlike files kept

/-! ## Files below an address -/

theorem filesBelow_without (files : tree.HasFilesAt gone) (address : Address) :
    (tree.without gone).filesBelow address =
      (tree.filesBelow address).filter fun found => address ++ found.1 ∉ gone := by
  simp only [filesBelow, (differAt_without files).leadsThrough_eq]
  rw [without, List.filterMap_filter, List.filter_filterMap]
  apply List.filterMap_congr
  rintro ⟨place, entry⟩ -
  cases entry with
  | link target => simp
  | directory => simp
  | file bytes =>
      by_cases below : address <+: place
      · obtain ⟨names, rfl⟩ := below
        by_cases isGone : address ++ names ∈ gone <;>
          by_cases longer : 0 < names.length <;>
            by_cases through : tree.leadsThrough address names = true <;>
              simp [Option.filter_some, isGone, longer, through]
      · simp [below]

end TidyLines.FileTree
