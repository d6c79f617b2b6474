import TidyLines.Proofs.Discovery.Found
import TidyLines.Proofs.Ignore.Unchanged

/-!
# Searches in a tree that changes

A search reads the ignore files of the directories that it walks through, and some files of the user
(`Search.Consults`).  When another tree has the same directories and the same of these files
(`Search.KeepsConsulted`), the same steps are admitted in it (`Search.admits_congr`).  The
induction is on the steps to a file: as long as the steps so far are admitted, the next one is
judged by ignore files that the search reads.  So a search finds the same files when only others get
new bytes (`Search.find_rewrite`).
-/

namespace TidyLines

/-- A workspace with the bytes of its files changed. -/
def Workspace.rewrite (workspace : Workspace) (change : Address → ByteArray → ByteArray) :
    Workspace :=
  { workspace with tree := workspace.tree.rewrite change }

/-- A found file with its bytes changed. -/
def FoundFile.rewrite (change : Address → ByteArray → ByteArray) (file : FoundFile) : FoundFile :=
  { file with bytes := change file.address file.bytes }

namespace Search

variable (search : Search) (workspace : Workspace)

/-- A walk enters a directory below the root if every step on the way to it is admitted. -/
def Enters (root : Address) (names : List String) : Prop :=
  ∀ count < names.length, (search.ignoreContext workspace).admits (root ++ names.take (count + 1))
    (search.pathOf (names.take (count + 1))).text.toList true = true

/-- What a search reads besides the files that it finds. -/
inductive Consults (address : Address) : Prop where
  /-- An ignore file of the root or of a directory above it. -/
  | above {root : Address} {kind : Ignore.Kind} (count : Nat)
      (leads : workspace.tree.resolve workspace.directory search.root = .ok root)
      (walks : workspace.isFile search.root = false)
      (counts : kind ∈ Ignore.kinds search.respectIgnoreFiles)
      (found : workspace.tree.resolve (root.take count) kind.path = .ok address)
  /-- An ignore file of a directory that is entered. -/
  | below {root : Address} {names : List String} {kind : Ignore.Kind}
      (leads : workspace.tree.resolve workspace.directory search.root = .ok root)
      (walks : workspace.isFile search.root = false)
      (enters : search.Enters workspace root names)
      (counts : kind ∈ Ignore.kinds search.respectIgnoreFiles)
      (found : workspace.tree.resolve (root ++ names) kind.path = .ok address)
  /-- A file from which the rules of the user are read. -/
  | user {path : Path}
      (walks : workspace.isFile search.root = false)
      (respected : search.respectIgnoreFiles = true)
      (isRead : path ∈ Ignore.userPaths workspace.tree workspace.directory workspace.environment
        workspace.home?)
      (found : workspace.tree.resolve workspace.directory path = .ok address)

/-- A change leaves alone what a search reads besides the files that it finds. -/
def SparesConsulted (change : Address → ByteArray → ByteArray) : Prop :=
  ∀ address, search.Consults workspace address →
    (workspace.tree.rewrite change).get? address = workspace.tree.get? address

/-- In another tree the same directories are there, and all that a search consults. -/
structure KeepsConsulted (other : FileTree) : Prop where
  directoriesOf_eq : Ignore.directoriesOf other = Ignore.directoriesOf workspace.tree
  readsAlike : ∀ directory path,
    (∀ address, workspace.tree.resolve directory path = .ok address →
      search.Consults workspace address) →
    other.ReadsAlike workspace.tree directory path

variable {search workspace}

section OtherTree

variable {other : FileTree}

theorem ignoreContext_congr (keeps : search.KeepsConsulted workspace other)
    (walks : workspace.isFile search.root = false) :
    search.ignoreContext { workspace with tree := other } =
      { search.ignoreContext workspace with
        files := Ignore.loadAll other search.respectIgnoreFiles } := by
  have sameUserRules : search.respectIgnoreFiles = true →
      Ignore.userRules other workspace.directory workspace.environment workspace.home? =
        Ignore.userRules workspace.tree workspace.directory workspace.environment
          workspace.home? := by
    intro respected
    apply Ignore.userRules_congr
    intro path isRead
    exact keeps.readsAlike _ _ fun address found => .user walks respected isRead found
  cases respected : search.respectIgnoreFiles with
  | false => simp [ignoreContext, respected, Workspace.directoryPath]
  | true =>
      have sameHome : ({ workspace with tree := other } : Workspace).home? = workspace.home? := rfl
      simp [ignoreContext, respected, Workspace.directoryPath, sameHome, sameUserRules respected]

/-- On the way to a name below a directory that is entered, only these ignore files count. -/
theorem readsAlike_take (keeps : search.KeepsConsulted workspace other) {root : Address}
    (leads : workspace.tree.resolve workspace.directory search.root = .ok root)
    (walks : workspace.isFile search.root = false) {names : List String} {step : Nat}
    (enters : search.Enters workspace root (names.take step)) {number : Nat}
    (within : number ≤ root.length + step) {kind : Ignore.Kind}
    (counts : kind ∈ Ignore.kinds search.respectIgnoreFiles) :
    other.ReadsAlike workspace.tree ((root ++ names).take number) kind.path := by
  apply keeps.readsAlike
  intro address found
  rcases Nat.le_total number root.length with inRoot | beyond
  · rw [List.take_append_of_le_length inRoot] at found
    exact .above number leads walks counts found
  · obtain ⟨more, rfl⟩ := Nat.exists_eq_add_of_le beyond
    have notFurther : more ≤ step := by omega
    rw [List.take_length_add_append] at found
    refine .below leads walks ?_ counts found
    intro count inNames
    have sooner : count + 1 ≤ more := by
      rw [List.length_take] at inNames
      omega
    have alsoIn : count < (names.take step).length := by
      rw [List.length_take] at inNames ⊢
      omega
    have admitted := enters count alsoIn
    rw [List.take_take, Nat.min_eq_left (Nat.le_trans sooner notFurther)] at admitted
    rwa [List.take_take, Nat.min_eq_left sooner]

/-- Two tests that agree on a number as soon as they hold for all smaller numbers hold for the same
ranges. -/
private theorem all_range_congr {first second : Nat → Bool} {bound : Nat}
    (agree : ∀ number < bound, (∀ smaller < number, first smaller = true) →
      first number = second number) :
    (List.range bound).all first = (List.range bound).all second := by
  induction bound with
  | zero => rfl
  | succ bound ih =>
      have sameBelow := ih fun number below => agree number (Nat.lt_succ_of_lt below)
      rw [List.range_succ, List.all_append, List.all_append, ← sameBelow]
      cases holds : (List.range bound).all first with
      | false => rfl
      | true =>
          have allBelow : ∀ smaller < bound, first smaller = true := by
            simpa [List.all_eq_true] using holds
          simp [agree bound (Nat.lt_succ_self bound) allBelow]

/-- In a tree that keeps what is consulted the same ways are admitted. -/
theorem admits_congr (keeps : search.KeepsConsulted workspace other) {root : Address}
    (leads : workspace.tree.resolve workspace.directory search.root = .ok root)
    (walks : workspace.isFile search.root = false) (names : List String) :
    search.admits (search.ignoreContext { workspace with tree := other }) root names =
      search.admits (search.ignoreContext workspace) root names := by
  rw [ignoreContext_congr keeps walks]
  symm
  apply all_range_congr
  intro step inNames soFar
  -- All steps before this one are admitted, so the walk is in the directory where this one starts.
  have enters : search.Enters workspace root (names.take step) := by
    intro count before
    rw [List.length_take] at before
    have admitted := soFar count (by omega)
    have goesOn : count + 1 < names.length := by omega
    rw [decide_eq_true goesOn] at admitted
    rwa [List.take_take, Nat.min_eq_left (by omega)]
  symm
  apply Ignore.Context.admits_congr keeps.directoriesOf_eq
  intro number within kind counts
  rw [List.length_append, List.length_take] at within
  have entersHere : search.Enters workspace root ((names.take (step + 1)).take step) := by
    rwa [List.take_take, Nat.min_eq_left (Nat.le_succ step)]
  exact readsAlike_take keeps leads walks entersHere (by omega) counts

theorem complaintsAbove_congr (keeps : search.KeepsConsulted workspace other) {root : Address}
    (leads : workspace.tree.resolve workspace.directory search.root = .ok root)
    (walks : workspace.isFile search.root = false) :
    Ignore.complaintsAbove other search.respectIgnoreFiles root =
      Ignore.complaintsAbove workspace.tree search.respectIgnoreFiles root := by
  apply Ignore.complaintsAbove_congr
  intro number _ kind counts
  exact keeps.readsAlike _ _ fun address found => .above number leads walks counts found

end OtherTree

/-! ## New bytes -/

variable {change : Address → ByteArray → ByteArray}

theorem SparesConsulted.keepsConsulted (spares : search.SparesConsulted workspace change) :
    search.KeepsConsulted workspace (workspace.tree.rewrite change) where
  directoriesOf_eq := Ignore.directoriesOf_rewrite change
  readsAlike _ _ consulted := FileTree.Spares.readsAlike fun address found =>
    spares address (consulted address found)

theorem admits_rewrite (spares : search.SparesConsulted workspace change) {root : Address}
    (leads : workspace.tree.resolve workspace.directory search.root = .ok root)
    (walks : workspace.isFile search.root = false) (names : List String) :
    search.admits (search.ignoreContext (workspace.rewrite change)) root names =
      search.admits (search.ignoreContext workspace) root names :=
  admits_congr spares.keepsConsulted leads walks names

theorem walked_rewrite (spares : search.SparesConsulted workspace change) {root : Address}
    (leads : workspace.tree.resolve workspace.directory search.root = .ok root)
    (walks : workspace.isFile search.root = false) :
    search.walked (workspace.rewrite change) root =
      (search.walked workspace root).map (FoundFile.rewrite change) := by
  have below : (workspace.rewrite change).tree.filesBelow root =
      (workspace.tree.filesBelow root).map fun found =>
        (found.1, change (root ++ found.1) found.2) :=
    FileTree.filesBelow_rewrite workspace.tree change root
  simp only [walked, below, List.filterMap_map, List.map_filterMap]
  apply List.filterMap_congr
  rintro ⟨names, bytes⟩ -
  simp only [Function.comp_apply, admits_rewrite spares leads walks]
  split <;> rfl

theorem filesBelow_rewrite (spares : search.SparesConsulted workspace change) {root : Address}
    (leads : workspace.tree.resolve workspace.directory search.root = .ok root)
    (walks : workspace.isFile search.root = false) :
    search.filesBelow (workspace.rewrite change) root =
      (search.filesBelow workspace root).map (FoundFile.rewrite change) := by
  have sameOrder : ∀ first second : FoundFile,
      inOrder first second = inOrder (first.rewrite change) (second.rewrite change) :=
    fun _ _ => rfl
  rw [filesBelow, filesBelow, walked_rewrite spares leads walks, List.filter_map]
  exact (List.map_mergeSort fun first _ second _ => sameOrder first second).symm

theorem isFile_rewrite (path : Path) :
    (workspace.rewrite change).isFile path = workspace.isFile path :=
  FileTree.isFile_rewrite workspace.tree change workspace.directory path

/-- A search finds the same files with their new bytes. -/
theorem find_rewrite (spares : search.SparesConsulted workspace change) :
    search.find (workspace.rewrite change) =
      (search.find workspace).map (List.map (FoundFile.rewrite change)) := by
  have sameAddress : (workspace.rewrite change).tree.resolve (workspace.rewrite change).directory
      search.root = workspace.tree.resolve workspace.directory search.root :=
    FileTree.resolve_rewrite workspace.tree change workspace.directory search.root
  cases leads : workspace.tree.resolve workspace.directory search.root with
  | error fault =>
      rw [find, find, sameAddress, leads]
      rfl
  | ok root =>
      by_cases isFile : workspace.isFile search.root = true
      · obtain ⟨bytes, found⟩ := (Workspace.isFile_iff leads).mp isFile
        have foundAfterwards : (workspace.rewrite change).tree.get? root =
            some (.file (change root bytes)) := by
          rw [Workspace.rewrite, FileTree.get?_rewrite, found]
          rfl
        rw [find, find, sameAddress, leads]
        simp only [found, foundAfterwards]
        rfl
      · have walks : workspace.isFile search.root = false := by simpa using isFile
        have sameComplaints : Ignore.complaintsAbove (workspace.rewrite change).tree
            search.respectIgnoreFiles root =
              Ignore.complaintsAbove workspace.tree search.respectIgnoreFiles root :=
          complaintsAbove_congr spares.keepsConsulted leads walks
        rw [search.find_of_walks (sameAddress.trans leads) ((isFile_rewrite _).trans walks),
          search.find_of_walks leads walks, sameComplaints, filesBelow_rewrite spares leads walks]
        cases Ignore.complaintsAbove workspace.tree search.respectIgnoreFiles root <;> rfl

end Search
end TidyLines
