import TidyLines.Discovery
import TidyLines.Proofs.FileTree.Rewriting

/-!
# What a search finds

A search lists files of a tree, each once and with the bytes that it holds (`Search.holds_find`).
Below a directory each of them is reached from the root by names (`Search.exists_reaches`), so that
no two of them have the same path as seen from there (`Search.pairwise_order_ne_filesBelow`).
-/

namespace TidyLines

/-- The files are in the tree, each at an address of its own. -/
structure FileTree.Holds (tree : FileTree) (files : List FoundFile) : Prop where
  addresses_nodup : (files.map FoundFile.address).Nodup
  get?_eq : ∀ file ∈ files, tree.get? file.address = some (.file file.bytes)

namespace FileTree

variable {tree : FileTree}

theorem Holds.perm {first second : List FoundFile} (holds : tree.Holds first)
    (perm : first.Perm second) : tree.Holds second where
  addresses_nodup := (perm.map _).nodup_iff.mp holds.addresses_nodup
  get?_eq file member := holds.get?_eq file (perm.mem_iff.mpr member)

theorem Holds.sublist {first second : List FoundFile} (holds : tree.Holds second)
    (sublist : first.Sublist second) : tree.Holds first where
  addresses_nodup := holds.addresses_nodup.sublist (sublist.map _)
  get?_eq file member := holds.get?_eq file (sublist.subset member)

theorem Holds.tail_rewrite {file : FoundFile} {others : List FoundFile}
    (holds : tree.Holds (file :: others)) (change : ByteArray → ByteArray) :
    (tree.rewrite (changeAt file.address change)).Holds others where
  addresses_nodup := holds.addresses_nodup.of_cons
  get?_eq other member := by
    have elsewhere : file.address ≠ other.address :=
      List.rel_of_pairwise_cons (List.pairwise_map.mp holds.addresses_nodup) member
    rw [get?_rewrite, holds.get?_eq other (List.mem_cons_of_mem file member), changeAt,
      if_neg elsewhere.symm]
    rfl

theorem mem_filesBelow_iff (wellFormed : tree.WellFormed) {address : Address}
    {names : List String} {bytes : ByteArray} :
    (names, bytes) ∈ tree.filesBelow address ↔ names ≠ [] ∧ (∀ name ∈ names, Path.IsName name) ∧
      tree.leadsThrough address names = true ∧
      tree.get? (address ++ names) = some (.file bytes) := by
  constructor
  · intro member
    obtain ⟨⟨place, entry⟩, listed, found⟩ := List.mem_filterMap.mp member
    cases entry with
    | link target => cases found
    | directory => cases found
    | file held =>
        simp only [Option.ite_none_right_eq_some, Option.some.injEq, Prod.mk.injEq,
          Bool.and_eq_true, List.isPrefixOf_iff_prefix, decide_eq_true_eq] at found
        obtain ⟨⟨⟨⟨rest, rfl⟩, longer⟩, through⟩, rfl, rfl⟩ := found
        rw [List.length_append] at longer
        rw [List.drop_left] at through ⊢
        refine ⟨?_, ?_, through, get?_of_mem wellFormed listed⟩
        · rintro rfl
          simp at longer
        · intro name inRest
          exact wellFormed.names_are_names _ (List.mem_map_of_mem listed) name
            (List.mem_append_right address inRest)
  · rintro ⟨nonempty, -, through, found⟩
    have listed := mem_entries_of_get? found (by simp [nonempty])
    have longer := List.length_pos_iff.mpr nonempty
    exact List.mem_filterMap.mpr ⟨_, listed, by simp [longer, through]⟩

theorem nodup_map_filesBelow (wellFormed : tree.WellFormed) (address : Address) :
    ((tree.filesBelow address).map Prod.fst).Nodup := by
  have apart : tree.entries.Pairwise fun first second => first.1 ≠ second.1 :=
    List.pairwise_map.mp wellFormed.addresses_nodup
  rw [List.Nodup, List.pairwise_map, filesBelow, List.pairwise_filterMap]
  refine apart.imp ?_
  rintro ⟨place, entry⟩ ⟨otherPlace, otherEntry⟩ differ first isFirst second isSecond same
  cases entry with
  | link target => cases isFirst
  | directory => cases isFirst
  | file bytes =>
      cases otherEntry with
      | link target => cases isSecond
      | directory => cases isSecond
      | file otherBytes =>
          simp only [Option.ite_none_right_eq_some, Option.some.injEq, Bool.and_eq_true,
            List.isPrefixOf_iff_prefix, decide_eq_true_eq] at isFirst isSecond
          obtain ⟨⟨⟨⟨rest, rfl⟩, -⟩, -⟩, rfl⟩ := isFirst
          obtain ⟨⟨⟨⟨otherRest, rfl⟩, -⟩, -⟩, rfl⟩ := isSecond
          simp only [List.drop_left] at same
          exact differ (congrArg (address ++ ·) same)

end FileTree

namespace Ignore

theorem rules_load_of_unread {tree : FileTree} {directory : Address} {kind : Kind} {fault : Fault}
    (unread : tree.read directory kind.path = .error fault) :
    (load tree directory kind).rules = {} := by
  rw [load, unread]

/-- Without ignore files and rules of the user only hidden names are left out. -/
theorem Context.admits_of_no_rules {context : Context} (noFiles : context.files = [])
    (noUserRules : context.userRules = []) (address : Address) (path : Text) (isDirectory : Bool) :
    context.admits address path isDirectory = !isHidden (address.getLastD "") := by
  have noVerdict : ∀ kind count, judgeKind? [] kind address isDirectory count = none := by
    intro kind count
    induction count with
    | zero => rfl
    | succ count ih =>
        rw [judgeKind?, ih]
        rfl
  have nothing : context.judge? address path isDirectory = none := by
    rw [Context.judge?, noFiles, Context.judgeUser?, noUserRules]
    simp [noVerdict, Ignore.judge?]
  rw [Context.admits, nothing]

end Ignore

/-- Whether a path leads to a file is decided at the address to which it leads. -/
theorem Workspace.isFile_iff {workspace : Workspace} {path : Path} {address : Address}
    (leads : workspace.tree.resolve workspace.directory path = .ok address) :
    workspace.isFile path = true ↔ ∃ bytes, workspace.tree.get? address = some (.file bytes) := by
  simp only [isFile, FileTree.isFile, FileTree.entryAt?, leads]
  rcases workspace.tree.get? address with _ | _ | _ | _ <;> simp

theorem Workspace.isFile_of_isDirectoryAt {workspace : Workspace} {path : Path} {address : Address}
    (leads : workspace.tree.resolve workspace.directory path = .ok address)
    (isDirectory : workspace.tree.isDirectoryAt address = true) :
    workspace.isFile path = false := by
  rw [Bool.eq_false_iff]
  intro isFile
  obtain ⟨bytes, atFile⟩ := (isFile_iff leads).mp isFile
  cases atFile.symm.trans (FileTree.isDirectoryAt_iff.mp isDirectory)

namespace Search

variable (search : Search) {workspace : Workspace} {files : List FoundFile}

/-- How a found file is reached from the root. -/
structure Reaches (root : Address) (names : List String) (file : FoundFile) : Prop where
  nonempty : names ≠ []
  are_names : ∀ name ∈ names, Path.IsName name
  path_eq : file.path = search.pathOf names
  address_eq : file.address = root ++ names

theorem mem_walked_iff (wellFormed : workspace.tree.WellFormed) {root : Address}
    {file : FoundFile} :
    file ∈ search.walked workspace root ↔
      workspace.tree.get? file.address = some (.file file.bytes) ∧
        ∃ names, search.Reaches root names file ∧
          workspace.tree.leadsThrough root names = true ∧
          search.admits (search.ignoreContext workspace) root names = true := by
  simp only [walked, List.mem_filterMap, Option.ite_none_right_eq_some, Option.some.injEq,
    Prod.exists, FileTree.mem_filesBelow_iff wellFormed]
  constructor
  · rintro ⟨names, bytes, ⟨nonempty, areNames, through, inTree⟩, admitted, rfl⟩
    exact ⟨inTree, names, ⟨nonempty, areNames, rfl, rfl⟩, through, admitted⟩
  · rintro ⟨inTree, names, reaches, through, admitted⟩
    refine ⟨names, file.bytes, ⟨reaches.nonempty, reaches.are_names, through, ?_⟩, admitted, ?_⟩
    · rw [← reaches.address_eq, inTree]
    · rw [← reaches.path_eq, ← reaches.address_eq]

theorem exists_of_mem_walked (wellFormed : workspace.tree.WellFormed) {root : Address}
    {file : FoundFile} (member : file ∈ search.walked workspace root) :
    workspace.tree.get? file.address = some (.file file.bytes) ∧
      ∃ names, search.Reaches root names file := by
  obtain ⟨inTree, names, reaches, -, -⟩ := (search.mem_walked_iff wellFormed).mp member
  exact ⟨inTree, names, reaches⟩

theorem holds_walked (wellFormed : workspace.tree.WellFormed) (root : Address) :
    workspace.tree.Holds (search.walked workspace root) where
  addresses_nodup := by
    have apart := List.pairwise_map.mp (FileTree.nodup_map_filesBelow wellFormed root)
    rw [List.Nodup, List.pairwise_map, walked, List.pairwise_filterMap]
    refine apart.imp ?_
    rintro ⟨names, bytes⟩ ⟨otherNames, otherBytes⟩ differ first isFirst second isSecond same
    simp only [Option.ite_none_right_eq_some, Option.some.injEq] at isFirst isSecond
    obtain ⟨-, rfl⟩ := isFirst
    obtain ⟨-, rfl⟩ := isSecond
    exact differ (List.append_cancel_left same)
  get?_eq _ member := (search.exists_of_mem_walked wellFormed member).1

variable {search} in
/-- Of the files below a directory, those are found that are to be taken and not left out. -/
theorem mem_filesBelow_iff {root : Address} {file : FoundFile} :
    file ∈ search.filesBelow workspace root ↔ file ∈ search.walked workspace root ∧
      search.includes file.path = true ∧ ¬ search.excludes file.path = true := by
  rw [filesBelow, List.mem_mergeSort, List.mem_filter, Bool.and_eq_true, Bool.not_eq_true',
    Bool.not_eq_true, and_comm (a := search.excludes file.path = false)]

theorem mem_walked_of_mem_filesBelow {root : Address} {file : FoundFile}
    (member : file ∈ search.filesBelow workspace root) : file ∈ search.walked workspace root :=
  (mem_filesBelow_iff.mp member).1

theorem holds_filesBelow (wellFormed : workspace.tree.WellFormed) (root : Address) :
    workspace.tree.Holds (search.filesBelow workspace root) := by
  have passed := (search.holds_walked wellFormed root).sublist (List.filter_sublist
    (p := fun file => !search.excludes file.path && search.includes file.path))
  exact passed.perm (List.mergeSort_perm _ inOrder).symm

theorem find_of_walks {root : Address}
    (leads : workspace.tree.resolve workspace.directory search.root = .ok root)
    (walks : workspace.isFile search.root = false) :
    search.find workspace =
      match Ignore.complaintsAbove workspace.tree search.respectIgnoreFiles root with
      | [] => .ok (search.filesBelow workspace root)
      | complaints => .error ("\n".intercalate complaints) := by
  have noFile : ∀ bytes, workspace.tree.get? root ≠ some (.file bytes) := by
    intro bytes isFile
    rw [(Workspace.isFile_iff leads).mpr ⟨bytes, isFile⟩] at walks
    cases walks
  rw [find, leads]
  dsimp only
  split
  next bytes isFile => exact absurd isFile (noFile bytes)
  next => rfl

/-- A search ends in one of two ways: with the root alone, if that is a file, or with files that are
reached from the directory to which the root leads. -/
theorem find_cases (found : search.find workspace = .ok files) :
    (workspace.isFile search.root = true ∧ ∃ address bytes,
      workspace.tree.resolve workspace.directory search.root = .ok address ∧
        files = [⟨search.root, address, bytes⟩] ∧
          workspace.tree.get? address = some (.file bytes)) ∨
    (workspace.isFile search.root = false ∧ ∃ root,
      workspace.tree.resolve workspace.directory search.root = .ok root ∧
        files = search.filesBelow workspace root) := by
  cases leads : workspace.tree.resolve workspace.directory search.root with
  | error fault => simp [find, leads] at found
  | ok root =>
      by_cases isFile : workspace.isFile search.root = true
      · obtain ⟨bytes, atRoot⟩ := (Workspace.isFile_iff leads).mp isFile
        simp only [find, leads, atRoot, Except.ok.injEq] at found
        exact Or.inl ⟨isFile, root, bytes, rfl, found.symm, atRoot⟩
      · have walks : workspace.isFile search.root = false := by simpa using isFile
        rw [search.find_of_walks leads walks] at found
        split at found
        · exact Or.inr ⟨walks, root, rfl, (Except.ok.inj found).symm⟩
        · cases found

/-- A search of a directory ends with the files below it. -/
theorem eq_filesBelow_of_find {root : Address}
    (leads : workspace.tree.resolve workspace.directory search.root = .ok root)
    (isDirectory : workspace.tree.isDirectoryAt root = true)
    (found : search.find workspace = .ok files) : files = search.filesBelow workspace root := by
  rcases search.find_cases found with ⟨isFile, -⟩ | ⟨-, address, alsoLeads, rfl⟩
  · cases (Workspace.isFile_of_isDirectoryAt leads isDirectory).symm.trans isFile
  · rw [Except.ok.inj (leads.symm.trans alsoLeads)]

/-- A search lists files of the tree, each once and with the bytes that it holds. -/
theorem holds_find (wellFormed : workspace.tree.WellFormed)
    (found : search.find workspace = .ok files) : workspace.tree.Holds files := by
  rcases search.find_cases found with ⟨-, address, bytes, -, rfl, inTree⟩ | ⟨-, root, -, rfl⟩
  · exact ⟨by simp, by simpa using inTree⟩
  · exact search.holds_filesBelow wellFormed root

theorem exists_reaches (wellFormed : workspace.tree.WellFormed) {root : Address}
    {file : FoundFile} (member : file ∈ search.filesBelow workspace root) :
    ∃ names, search.Reaches root names file :=
  (search.exists_of_mem_walked wellFormed (search.mem_walked_of_mem_filesBelow member)).2

theorem Reaches.relativeTo_eq {search : Search} {root : Address} {names : List String}
    {file : FoundFile} (reaches : search.Reaches root names file) :
    search.root.relativeTo file.path = ⟨names⟩ := by
  rw [reaches.path_eq, pathOf]
  exact search.root.relativeTo_join reaches.nonempty reaches.are_names

/-- No two files below a directory are at the same place in the order of paths. -/
theorem pairwise_order_ne_filesBelow (wellFormed : workspace.tree.WellFormed) (root : Address) :
    (search.filesBelow workspace root).Pairwise fun first second =>
      (search.root.relativeTo first.path).order (search.root.relativeTo second.path) ≠ .eq := by
  have holds := search.holds_filesBelow wellFormed root
  refine (List.pairwise_map.mp holds.addresses_nodup).imp_of_mem ?_
  intro first second firstMember secondMember differ tie
  obtain ⟨names, reaches⟩ := search.exists_reaches wellFormed firstMember
  obtain ⟨otherNames, otherReaches⟩ := search.exists_reaches wellFormed secondMember
  rw [reaches.relativeTo_eq, otherReaches.relativeTo_eq,
    Path.order_names_eq_iff reaches.are_names otherReaches.are_names] at tie
  subst tie
  exact differ (reaches.address_eq.trans otherReaches.address_eq.symm)

/-! ## The order of found files -/

theorem inOrder_eq_isLE (first second : FoundFile) :
    inOrder first second = (first.path.order second.path).isLE := by
  rw [inOrder]
  cases first.path.order second.path <;> rfl

theorem inOrder_trans (first second third : FoundFile) (before : inOrder first second = true)
    (after : inOrder second third = true) : inOrder first third = true := by
  rw [inOrder_eq_isLE] at before after ⊢
  exact Std.TransCmp.isLE_trans before after

theorem inOrder_total (first second : FoundFile) :
    (inOrder first second || inOrder second first) = true := by
  rw [inOrder_eq_isLE, inOrder_eq_isLE,
    @Std.OrientedCmp.eq_swap _ Path.order _ first.path second.path]
  cases second.path.order first.path <;> rfl

theorem Reaches.order_eq_iff {root : Address} {names otherNames : List String}
    {file other : FoundFile} (reaches : search.Reaches root names file)
    (otherReaches : search.Reaches root otherNames other) :
    file.path.order other.path = .eq ↔ names = otherNames := by
  rw [reaches.path_eq, otherReaches.path_eq, pathOf, pathOf, Path.order_eq_iff,
    search.root.components_join reaches.nonempty reaches.are_names,
    search.root.components_join otherReaches.nonempty otherReaches.are_names,
    List.append_cancel_left_eq]
  refine List.map_inj_right ?_
  rintro name otherName ⟨⟩
  rfl

/-- Files are found in the order of their paths, of which no two are tied. -/
theorem pairwise_order_lt_filesBelow (wellFormed : workspace.tree.WellFormed) (root : Address) :
    (search.filesBelow workspace root).Pairwise fun first second =>
      first.path.order second.path = .lt := by
  have sorted : (search.filesBelow workspace root).Pairwise fun first second =>
      inOrder first second = true := List.pairwise_mergeSort inOrder_trans inOrder_total _
  have apart := List.pairwise_map.mp (search.holds_filesBelow wellFormed root).addresses_nodup
  refine (sorted.and apart).imp_of_mem ?_
  rintro first second firstMember secondMember ⟨before, differ⟩
  obtain ⟨names, reaches⟩ := search.exists_reaches wellFormed firstMember
  obtain ⟨otherNames, otherReaches⟩ := search.exists_reaches wellFormed secondMember
  have notTied : first.path.order second.path ≠ .eq := by
    rw [Ne, reaches.order_eq_iff search otherReaches]
    rintro rfl
    exact differ (reaches.address_eq.trans otherReaches.address_eq.symm)
  rw [inOrder_eq_isLE] at before
  cases order : first.path.order second.path with
  | lt => rfl
  | eq => exact absurd order notTied
  | gt => simp [order] at before

/-- Lists in the order of paths are the same if they have the same files. -/
theorem eq_of_pairwise_order_lt {first second : List FoundFile}
    (firstSorted : first.Pairwise fun file other => file.path.order other.path = .lt)
    (secondSorted : second.Pairwise fun file other => file.path.order other.path = .lt)
    (same : ∀ file, file ∈ first ↔ file ∈ second) : first = second := by
  have apart : ∀ file other : FoundFile, file.path.order other.path = .lt → file ≠ other := by
    rintro file _ before rfl
    have tied : file.path.order file.path = .eq := Std.ReflCmp.compare_self
    cases tied.symm.trans before
  have perm := (List.perm_ext_iff_of_nodup (firstSorted.imp (apart _ _))
    (secondSorted.imp (apart _ _))).mpr same
  refine perm.eq_of_pairwise ?_ firstSorted secondSorted
  intro file other _ _ before after
  cases (Std.OrientedCmp.gt_of_lt before).symm.trans after

theorem pairwise_order_lt_find (wellFormed : workspace.tree.WellFormed)
    (found : search.find workspace = .ok files) :
    files.Pairwise fun first second => first.path.order second.path = .lt := by
  rcases search.find_cases found with ⟨-, address, bytes, -, rfl, -⟩ | ⟨-, root, -, rfl⟩
  · exact List.pairwise_singleton _ _
  · exact search.pairwise_order_lt_filesBelow wellFormed root

end Search
end TidyLines
