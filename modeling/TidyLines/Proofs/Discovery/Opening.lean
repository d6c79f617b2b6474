import TidyLines.Proofs.Discovery.Found
import TidyLines.Proofs.FileTree.Ways

/-!
# Opening the files that are found

Found files are read and written under their paths.  Such a path leads to its file or nowhere
(`FileTree.Opens`): behind the root it is made of names of directories and of the file, so that only
its length can make it fail (`Search.resolve_of_mem_walked`).  Writing to the file keeps that for
all others.
-/

namespace TidyLines

namespace FileTree

variable {tree : FileTree} {directory : Address} {files : List FoundFile} {file : FoundFile}

/-- Where a way leads that has to end at something, it leads also if its end may be missing. -/
theorem walkTo_writing {links : Nat} {here address : Address} {steps : List String}
    (leads : tree.walkTo false links here steps = .ok address) :
    tree.walkTo true links here steps = .ok address := by
  fun_induction walkTo tree false links here steps with
  | case1 => rwa [walkTo]
  | case2 links here step rest isDirectory isTrivial ih =>
      rw [walkTo, if_pos isDirectory, if_pos isTrivial, ih leads]
  | case3 links here rest isDirectory notTrivial ih =>
      rw [walkTo, if_pos isDirectory, if_neg notTrivial, if_pos rfl, ih leads]
  | case5 => contradiction
  | case8 here step rest isDirectory notTrivial notDots fits target found links ih =>
      rw [dite_eq_ite] at ih
      rw [walkTo]
      simp [isDirectory, notTrivial, notDots, fits, found, ih leads]
  | case9 links here step rest isDirectory notTrivial notDots fits entry noLink found ih =>
      rw [walkTo]
      cases entry with
      | link target => exact absurd rfl (noLink target)
      | file bytes => simp [isDirectory, notTrivial, notDots, fits, found, ih leads]
      | directory => simp [isDirectory, notTrivial, notDots, fits, found, ih leads]
  | _ => cases leads

theorem write_of_resolve {path : Path} {address : Address}
    (leads : tree.resolve directory path = .ok address) {old : ByteArray}
    (isFile : tree.get? address = some (.file old)) (bytes : ByteArray) :
    tree.write directory path bytes = .ok (tree.put address (.file bytes)) := by
  obtain ⟨accepted, way⟩ := resolve_eq_ok_iff.mp leads
  have noDirectory : tree.isDirectoryAt address = false := by
    rw [isDirectoryAt, isFile]
    rfl
  simp [write, accepted, walkTo_writing way, noDirectory, bind, Except.bind]

theorem read_of_resolve {path : Path} {address : Address}
    (leads : tree.resolve directory path = .ok address) {bytes : ByteArray}
    (isFile : tree.get? address = some (.file bytes)) :
    tree.read directory path = .ok bytes := by
  simp [read, leads, isFile, bind, Except.bind]

/-- The files are in the tree, and the path of each leads to it if it leads anywhere. -/
structure Opens (tree : FileTree) (directory : Address) (files : List FoundFile) : Prop
    extends tree.Holds files where
  leads_only : ∀ file ∈ files, ∀ address,
    tree.resolve directory file.path = .ok address → address = file.address

namespace Opens

/-- What is read under the path of a file is what it holds. -/
theorem read_eq (opens : tree.Opens directory files) (member : file ∈ files) :
    tree.read directory file.path =
      (tree.resolve directory file.path).map fun _ => file.bytes := by
  cases leads : tree.resolve directory file.path with
  | error fault => simp [read, leads, bind, Except.bind, Except.map]
  | ok address =>
      obtain rfl := opens.leads_only file member address leads
      exact read_of_resolve leads (opens.get?_eq file member)

theorem write_eq (opens : tree.Opens directory files) (member : file ∈ files) {address : Address}
    (leads : tree.resolve directory file.path = .ok address) (bytes : ByteArray) :
    tree.write directory file.path bytes = .ok (tree.put file.address (.file bytes)) := by
  obtain rfl := opens.leads_only file member address leads
  exact write_of_resolve leads (opens.get?_eq file member) bytes

theorem sublist {first second : List FoundFile} (opens : tree.Opens directory second)
    (sublist : first.Sublist second) : tree.Opens directory first where
  toHolds := opens.toHolds.sublist sublist
  leads_only file member := opens.leads_only file (sublist.subset member)

/-- Writing to the first file leaves the others as they are. -/
theorem tail_rewrite {others : List FoundFile} (opens : tree.Opens directory (file :: others))
    (change : ByteArray → ByteArray) :
    (tree.rewrite (changeAt file.address change)).Opens directory others where
  toHolds := opens.toHolds.tail_rewrite change
  leads_only other member address leads := by
    rw [resolve_rewrite] at leads
    exact opens.leads_only other (List.mem_cons_of_mem file member) address leads

end Opens
end FileTree

/-- What a path leads to is a file, which can be read. -/
def Workspace.CanRead (workspace : Workspace) (path : Path) : Prop :=
  ∃ bytes, workspace.tree.read workspace.directory path = .ok bytes

theorem FileTree.Opens.canRead_iff {workspace : Workspace} {files : List FoundFile}
    (opens : workspace.tree.Opens workspace.directory files) {file : FoundFile}
    (member : file ∈ files) :
    workspace.CanRead file.path ↔
      workspace.tree.resolve workspace.directory file.path = .ok file.address := by
  rw [Workspace.CanRead, opens.read_eq member]
  cases leads : workspace.tree.resolve workspace.directory file.path with
  | error fault => simp [Except.map]
  | ok address => simp [Except.map, opens.leads_only file member address leads]

namespace Search

variable {search : Search} {workspace : Workspace} {files : List FoundFile} {file : FoundFile}
  {root : Address}

/-- The path of a file below the root leads to it, unless the path or a name in it is too long. -/
theorem resolve_of_mem_walked (wellFormed : workspace.tree.WellFormed)
    (leads : workspace.tree.resolve workspace.directory search.root = .ok root)
    (member : file ∈ search.walked workspace root) :
    ∃ names, search.Reaches root names file ∧
      workspace.tree.resolve workspace.directory file.path =
        (FileTree.checkSpelling file.path).bind fun _ =>
          if FileTree.NamesFit names then .ok file.address else .error .nameTooLong := by
  obtain ⟨inTree, names, reaches, through, -⟩ := (search.mem_walked_iff wellFormed).mp member
  refine ⟨names, reaches, ?_⟩
  rw [reaches.address_eq] at inTree ⊢
  rw [reaches.path_eq]
  exact FileTree.resolve_join_names leads reaches.nonempty reaches.are_names through inTree

/-- Two searches that reach a file by the same path find it alike or fail alike. -/
theorem resolve_eq_of_mem_walked {other : Workspace} {later : FoundFile}
    (wellFormed : workspace.tree.WellFormed) (otherWellFormed : other.tree.WellFormed)
    (leads : workspace.tree.resolve workspace.directory search.root = .ok root)
    (otherLeads : other.tree.resolve other.directory search.root = .ok root)
    (member : file ∈ search.walked workspace root)
    (otherMember : later ∈ search.walked other root) (samePath : later.path = file.path)
    (sameAddress : later.address = file.address) :
    other.tree.resolve other.directory later.path =
      workspace.tree.resolve workspace.directory file.path := by
  obtain ⟨names, reaches, way⟩ := resolve_of_mem_walked wellFormed leads member
  obtain ⟨otherNames, otherReaches, otherWay⟩ :=
    resolve_of_mem_walked otherWellFormed otherLeads otherMember
  have sameNames : otherNames = names := by
    rw [otherReaches.address_eq, reaches.address_eq] at sameAddress
    exact List.append_cancel_left sameAddress
  rw [way, otherWay, samePath, sameAddress, sameNames]

theorem opens_find (wellFormed : workspace.tree.WellFormed)
    (found : search.find workspace = .ok files) :
    workspace.tree.Opens workspace.directory files where
  toHolds := search.holds_find wellFormed found
  leads_only file member address leadsThere := by
    rcases search.find_cases found with ⟨-, place, bytes, leads, rfl, -⟩ | ⟨-, root, leads, rfl⟩
    · obtain rfl := List.mem_singleton.mp member
      exact Except.ok.inj (leadsThere.symm.trans leads)
    · have isWalked := search.mem_walked_of_mem_filesBelow member
      obtain ⟨names, -, way⟩ := resolve_of_mem_walked wellFormed leads isWalked
      rw [way] at leadsThere
      cases accepted : FileTree.checkSpelling file.path with
      | error fault => simp [accepted, Except.bind] at leadsThere
      | ok _ =>
          simp only [accepted, Except.bind] at leadsThere
          split at leadsThere
          · exact (Except.ok.inj leadsThere).symm
          · cases leadsThere

end Search
end TidyLines
