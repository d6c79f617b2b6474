import Mathlib.Data.List.Basic
import TidyLines.FileTree
import TidyLines.Proofs.Path.Below

/-!
# Trees with other bytes in their files

Formatting leaves every entry of a tree where it is and changes only what files hold.  This file
describes such a change as a function of the address and the bytes (`FileTree.rewrite`), shows that
links and directories lead where they led before, and that writing to a file that is there already
is such a change (`FileTree.put_eq_rewrite`).
-/

namespace TidyLines

/-- An entry with the bytes changed that it holds, if it is a file. -/
def Entry.rewrite (change : ByteArray → ByteArray) : Entry → Entry
  | file bytes => file (change bytes)
  | directory => directory
  | link target => link target

@[simp]
theorem Entry.rewrite_id (entry : Entry) : entry.rewrite id = entry := by
  cases entry <;> rfl

@[simp]
theorem Entry.rewrite_rewrite (first second : ByteArray → ByteArray) (entry : Entry) :
    (entry.rewrite first).rewrite second = entry.rewrite fun bytes => second (first bytes) := by
  cases entry <;> rfl

namespace FileTree

/-- A tree as it can stand on a disk. -/
structure WellFormed (tree : FileTree) : Prop where
  addresses_nodup : (tree.entries.map Prod.fst).Nodup
  root_unlisted : [] ∉ tree.entries.map Prod.fst
  names_are_names : ∀ address ∈ tree.entries.map Prod.fst, ∀ name ∈ address, Path.IsName name

instance (tree : FileTree) : Decidable tree.WellFormed :=
  decidable_of_iff ((tree.entries.map Prod.fst).Nodup ∧ [] ∉ tree.entries.map Prod.fst ∧
      ∀ address ∈ tree.entries.map Prod.fst, ∀ name ∈ address, Path.IsName name)
    ⟨fun ⟨nodup, unlisted, areNames⟩ => ⟨nodup, unlisted, areNames⟩,
      fun ⟨nodup, unlisted, areNames⟩ => ⟨nodup, unlisted, areNames⟩⟩

theorem lookup_eq_some_of_mem {entries : List (Address × Entry)}
    (nodup : (entries.map Prod.fst).Nodup) {address : Address} {entry : Entry}
    (member : (address, entry) ∈ entries) : entries.lookup address = some entry := by
  induction entries with
  | nil => cases member
  | cons first others ih =>
      rcases List.mem_cons.mp member with rfl | later
      · simp
      · have differs : first.1 ≠ address :=
          List.rel_of_pairwise_cons (List.pairwise_map.mp nodup) later
        rw [List.lookup_cons, beq_false_of_ne differs.symm]
        exact ih nodup.of_cons later

theorem get?_of_mem {tree : FileTree} (wellFormed : tree.WellFormed) {address : Address}
    {entry : Entry} (member : (address, entry) ∈ tree.entries) :
    tree.get? address = some entry := by
  have below : address ≠ [] := by
    rintro rfl
    exact wellFormed.root_unlisted (List.mem_map_of_mem member)
  rw [get?, if_neg below]
  exact lookup_eq_some_of_mem wellFormed.addresses_nodup member

theorem ne_nil_of_file {tree : FileTree} {address : Address} {bytes : ByteArray}
    (isFile : tree.get? address = some (.file bytes)) : address ≠ [] := by
  rintro rfl
  simp [get?] at isFile

theorem mem_entries_of_get? {tree : FileTree} {address : Address} {entry : Entry}
    (found : tree.get? address = some entry) (below : address ≠ []) :
    (address, entry) ∈ tree.entries := by
  rw [get?, if_neg below, List.lookup_eq_some_iff] at found
  obtain ⟨before, after, entriesEq, -⟩ := found
  simp [entriesEq]

theorem mem_addresses_of_get? {tree : FileTree} {address : Address} {entry : Entry}
    (found : tree.get? address = some entry) (below : address ≠ []) :
    address ∈ tree.entries.map Prod.fst :=
  List.mem_map_of_mem (mem_entries_of_get? found below)

theorem are_names_of_get? {tree : FileTree} (wellFormed : tree.WellFormed) {address : Address}
    {entry : Entry} (found : tree.get? address = some entry) :
    ∀ name ∈ address, Path.IsName name := by
  by_cases isRoot : address = []
  · simp [isRoot]
  · exact wellFormed.names_are_names address (mem_addresses_of_get? found isRoot)

/-- A tree with the bytes of its files changed, in a way that may depend on where a file is. -/
def rewrite (tree : FileTree) (change : Address → ByteArray → ByteArray) : FileTree :=
  ⟨tree.entries.map fun entry => (entry.1, entry.2.rewrite (change entry.1))⟩

variable (tree : FileTree) (change : Address → ByteArray → ByteArray)

@[simp]
theorem addresses_rewrite :
    (tree.rewrite change).entries.map Prod.fst = tree.entries.map Prod.fst := by
  simp [rewrite]

theorem WellFormed.rewrite {tree : FileTree} (wellFormed : tree.WellFormed)
    (change : Address → ByteArray → ByteArray) : (tree.rewrite change).WellFormed := by
  constructor
  · rw [addresses_rewrite]
    exact wellFormed.addresses_nodup
  · rw [addresses_rewrite]
    exact wellFormed.root_unlisted
  · rw [addresses_rewrite]
    exact wellFormed.names_are_names

@[simp]
theorem rewrite_id : (tree.rewrite fun _ => id) = tree := by
  simp [rewrite]

/-- A change counts only at the files that there are. -/
theorem rewrite_congr {tree : FileTree} (wellFormed : tree.WellFormed)
    {change other : Address → ByteArray → ByteArray}
    (agree : ∀ address bytes, tree.get? address = some (.file bytes) →
      change address bytes = other address bytes) :
    tree.rewrite change = tree.rewrite other := by
  rw [rewrite, rewrite, FileTree.mk.injEq]
  apply List.map_congr_left
  rintro ⟨address, entry⟩ member
  have found := get?_of_mem wellFormed member
  cases entry with
  | link target => rfl
  | directory => rfl
  | file bytes => simp [Entry.rewrite, agree address bytes found]

theorem rewrite_rewrite (other : Address → ByteArray → ByteArray) :
    (tree.rewrite change).rewrite other =
      tree.rewrite fun address bytes => other address (change address bytes) := by
  simp [rewrite, Function.comp_def]

@[simp]
theorem get?_rewrite (address : Address) :
    (tree.rewrite change).get? address =
      (tree.get? address).map (Entry.rewrite (change address)) := by
  by_cases root : address = []
  · simp [get?, root, Entry.rewrite]
  · rw [get?, get?, if_neg root, if_neg root, rewrite]
    induction tree.entries with
    | nil => rfl
    | cons first others ih =>
        rw [List.map_cons, List.lookup_cons, List.lookup_cons, ih]
        by_cases here : address = first.1
        · rw [here, beq_self_eq_true]
          rfl
        · rw [beq_false_of_ne here]

@[simp]
theorem isDirectoryAt_rewrite (address : Address) :
    (tree.rewrite change).isDirectoryAt address = tree.isDirectoryAt address := by
  rw [isDirectoryAt, isDirectoryAt, get?_rewrite]
  rcases tree.get? address with _ | _ | _ | _ <;> rfl

theorem isDirectoryAt_iff {tree : FileTree} {address : Address} :
    tree.isDirectoryAt address = true ↔ tree.get? address = some .directory := by
  rw [isDirectoryAt]
  rcases tree.get? address with _ | _ | _ | _ <;> simp [Entry.isDirectory]

/-! ## Ways through a tree -/

@[simp]
theorem walkTo_rewrite (writing : Bool) (links : Nat) (here : Address) (steps : List String) :
    (tree.rewrite change).walkTo writing links here steps =
      tree.walkTo writing links here steps := by
  fun_induction walkTo tree writing links here steps with
  | case1 => rw [walkTo]
  | case9 links here step rest isDirectory notTrivial notDots fits entry noLink found ih =>
      rw [walkTo]
      cases entry with
      | link target => exact absurd rfl (noLink target)
      | file bytes => simp [isDirectory, notTrivial, notDots, fits, found, ih, Entry.rewrite]
      | directory => simp [isDirectory, notTrivial, notDots, fits, found, ih, Entry.rewrite]
  | case8 here step rest isDirectory notTrivial notDots fits target found links ih =>
      rw [dite_eq_ite] at ih
      rw [walkTo]
      simp [isDirectory, notTrivial, notDots, fits, found, ih, Entry.rewrite]
  | _ =>
      rw [walkTo]
      simp [*, Entry.rewrite]

@[simp]
theorem resolve_rewrite (directory : Address) (path : Path) :
    (tree.rewrite change).resolve directory path = tree.resolve directory path := by
  simp [resolve]

@[simp]
theorem isFile_rewrite (directory : Address) (path : Path) :
    (tree.rewrite change).isFile directory path = tree.isFile directory path := by
  rw [isFile, isFile, entryAt?, entryAt?, resolve_rewrite]
  cases tree.resolve directory path with
  | error fault => rfl
  | ok address =>
      simp only [get?_rewrite]
      rcases tree.get? address with _ | _ | _ | _ <;> rfl

theorem ne_link_of_entries {tree : FileTree}
    (plain : ∀ entry ∈ tree.entries, entry.2.isDirectory = true ∨ entry.2.bytes?.isSome = true)
    (address : Address) (target : Path) : tree.get? address ≠ some (.link target) := by
  intro isLink
  by_cases atRoot : address = []
  · simp [get?, atRoot] at isLink
  · have listed := plain _ (mem_entries_of_get? isLink atRoot)
    simp [Entry.isDirectory, Entry.bytes?] at listed

theorem eq_of_walkTo_name {tree : FileTree} {links : Nat} {here address : Address} {name : String}
    (isName : Path.IsName name)
    (noLink : ∀ target, tree.get? (here ++ [name]) ≠ some (.link target))
    (leads : tree.walkTo false links here [name] = .ok address) : address = here ++ [name] := by
  rw [walkTo, isName.isTrivial_eq_false, if_neg isName.ne_dots] at leads
  simp only [Bool.false_eq_true, if_false] at leads
  split at leads
  · split at leads
    · cases leads
    · split at leads
      next => simp at leads
      next target isLink => exact absurd isLink (noLink target)
      next entry notLink found =>
        rw [walkTo] at leads
        exact (Except.ok.inj leads).symm
  · cases leads

/-- A name that is no link leads to the entry of that name in a directory. -/
theorem eq_of_resolve_name {tree : FileTree} {directory address : Address} {name : String}
    (isName : Path.IsName name)
    (noLink : ∀ target, tree.get? (directory ++ [name]) ≠ some (.link target))
    (leads : tree.resolve directory ⟨[name]⟩ = .ok address) : address = directory ++ [name] := by
  have relative : startOf directory ⟨[name]⟩ = directory := by
    simp [startOf, Path.isAbsolute]
  rw [resolve, relative] at leads
  cases spelled : checkSpelling ⟨[name]⟩ with
  | error fault => simp [spelled, bind, Except.bind] at leads
  | ok _ =>
      simp only [spelled, bind, Except.bind] at leads
      exact eq_of_walkTo_name isName noLink leads

theorem toOption_read_eq_some_iff {tree : FileTree} {directory : Address} {path : Path}
    {bytes : ByteArray} :
    (tree.read directory path).toOption = some bytes ↔
      ∃ address, tree.resolve directory path = .ok address ∧
        tree.get? address = some (.file bytes) := by
  rw [read]
  cases tree.resolve directory path with
  | error fault => simp [bind, Except.bind, Except.toOption]
  | ok address =>
      simp only [bind, Except.bind, Except.ok.injEq, exists_eq_left']
      rcases tree.get? address with _ | _ | _ | _ <;> simp [Except.toOption]

theorem toOption_readText (tree : FileTree) (directory : Address) (path : Path) :
    (tree.readText directory path).toOption =
      (tree.read directory path).toOption.bind Text.decode? := by
  rw [readText]
  cases tree.read directory path with
  | error fault => rfl
  | ok bytes =>
      simp only [bind, Except.bind, Except.toOption, Option.bind_some]
      cases Text.decode? bytes <;> rfl

/-- Two trees hold the same file where a path leads, or neither of them holds one. -/
def ReadsAlike (first second : FileTree) (directory : Address) (path : Path) : Prop :=
  (first.read directory path).toOption = (second.read directory path).toOption

/-- A change leaves alone what a path leads to. -/
def Spares (directory : Address) (path : Path) : Prop :=
  ∀ address, tree.resolve directory path = .ok address →
    (tree.rewrite change).get? address = tree.get? address

theorem Spares.readsAlike {tree : FileTree} {change : Address → ByteArray → ByteArray}
    {directory : Address} {path : Path} (spares : tree.Spares change directory path) :
    (tree.rewrite change).ReadsAlike tree directory path := by
  rw [ReadsAlike, read, read, resolve_rewrite]
  cases leads : tree.resolve directory path with
  | error fault => rfl
  | ok address => simp only [bind, Except.bind, spares address leads]

@[simp]
theorem leadsThrough_rewrite (address : Address) (names : List String) :
    (tree.rewrite change).leadsThrough address names = tree.leadsThrough address names := by
  simp [leadsThrough]

theorem filesBelow_rewrite (address : Address) :
    (tree.rewrite change).filesBelow address =
      (tree.filesBelow address).map fun found =>
        (found.1, change (address ++ found.1) found.2) := by
  simp only [filesBelow, leadsThrough_rewrite]
  rw [rewrite, List.filterMap_map, List.map_filterMap]
  apply List.filterMap_congr
  rintro ⟨place, entry⟩ -
  cases entry with
  | link target => rfl
  | directory => rfl
  | file bytes =>
      simp only [Function.comp_apply, Entry.rewrite]
      by_cases below : address <+: place
      · obtain ⟨names, rfl⟩ := below
        simp
      · simp [below]

/-! ## Writing to a file -/

/-- The change of the bytes at one address. -/
def changeAt (address : Address) (change : ByteArray → ByteArray) :
    Address → ByteArray → ByteArray :=
  fun other => if other = address then change else id

theorem setEntry_eq_map {entries : List (Address × Entry)}
    (nodup : (entries.map Prod.fst).Nodup) {address : Address} {bytes : ByteArray}
    (found : entries.lookup address = some (.file bytes)) (change : ByteArray → ByteArray) :
    setEntry address (.file (change bytes)) entries =
      entries.map fun entry => (entry.1, entry.2.rewrite (changeAt address change entry.1)) := by
  induction entries with
  | nil => cases found
  | cons first others ih =>
      rw [List.lookup_cons] at found
      by_cases here : address = first.1
      · subst here
        rw [beq_self_eq_true, Option.some.injEq] at found
        have elsewhere : others.map (fun entry =>
            (entry.1, entry.2.rewrite (changeAt first.1 change entry.1))) = others := by
          conv_rhs => rw [← List.map_id others]
          apply List.map_congr_left
          intro entry member
          have differs : first.1 ≠ entry.1 :=
            List.rel_of_pairwise_cons (List.pairwise_map.mp nodup) member
          simp [changeAt, differs.symm]
        rw [setEntry, if_pos (beq_self_eq_true first.1), List.map_cons, elsewhere, found]
        simp [changeAt, Entry.rewrite]
      · have differs : first.1 ≠ address := Ne.symm here
        rw [beq_false_of_ne here] at found
        rw [setEntry, if_neg (by simpa using differs), List.map_cons, ih nodup.of_cons found]
        simp [changeAt, differs]

/-- Writing new bytes to a file that is there changes the tree at this address. -/
theorem put_eq_rewrite {tree : FileTree} (wellFormed : tree.WellFormed) {address : Address}
    {bytes : ByteArray} (found : tree.get? address = some (.file bytes))
    (change : ByteArray → ByteArray) :
    tree.put address (.file (change bytes)) = tree.rewrite (changeAt address change) := by
  rw [get?, if_neg (ne_nil_of_file found)] at found
  rw [put, rewrite, setEntry_eq_map wellFormed.addresses_nodup found]

theorem put_self {tree : FileTree} (wellFormed : tree.WellFormed) {address : Address}
    {bytes : ByteArray} (found : tree.get? address = some (.file bytes)) :
    tree.put address (.file bytes) = tree := by
  have noChange : changeAt address id = fun _ => id := by
    funext other
    simp [changeAt]
  calc
    tree.put address (.file bytes) = tree.rewrite (changeAt address id) :=
      put_eq_rewrite wellFormed found id
    _ = tree := by rw [noChange, rewrite_id]

end FileTree
end TidyLines
