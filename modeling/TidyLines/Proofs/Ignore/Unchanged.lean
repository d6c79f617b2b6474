import TidyLines.Ignore.Files
import TidyLines.Ignore.User
import TidyLines.Proofs.FileTree.Removal

/-!
# Ignore files that stay as they are

What ignore files say about an address depends on those in the directories on the way to it, and on
those of the user.  As long as these can be read as before, all other files of a tree may change or
go away (`Ignore.Context.admits_congr`, `Ignore.userRules_congr`).
-/

namespace TidyLines.Ignore

variable {tree other : FileTree} {respected : Bool}

theorem directoriesOf_rewrite (change : Address → ByteArray → ByteArray) :
    directoriesOf (tree.rewrite change) = directoriesOf tree := by
  rw [directoriesOf, directoriesOf, FileTree.rewrite, List.filterMap_map]
  congr 1
  apply List.filterMap_congr
  rintro ⟨address, entry⟩ -
  cases entry <;> rfl

theorem directoriesOf_without (wellFormed : tree.WellFormed) {gone : List Address}
    (files : tree.HasFilesAt gone) : directoriesOf (tree.without gone) = directoriesOf tree := by
  rw [directoriesOf, directoriesOf, FileTree.without, List.filterMap_filter]
  congr 1
  apply List.filterMap_congr
  rintro ⟨address, entry⟩ listed
  cases entry with
  | file bytes => simp
  | link target => simp
  | directory =>
      have kept : address ∉ gone := files.not_mem (FileTree.get?_of_mem wellFormed listed) rfl
      simp [kept]

theorem load_congr {directory : Address} {kind : Kind}
    (alike : other.ReadsAlike tree directory kind.path) :
    load other directory kind = load tree directory kind := by
  rw [FileTree.ReadsAlike] at alike
  rw [load, load, LoadedFile.mk.injEq]
  refine ⟨rfl, rfl, ?_⟩
  cases readOther : other.read directory kind.path <;>
    cases readTree : tree.read directory kind.path <;>
    simp_all [Except.toOption]

theorem find?_loadAll_congr (sameDirectories : directoriesOf other = directoriesOf tree)
    {directory : Address} {kind : Kind} (alike : other.ReadsAlike tree directory kind.path) :
    (loadAll other respected).find?
        (fun file => file.kind == kind && file.directory == directory) =
      (loadAll tree respected).find?
        fun file => file.kind == kind && file.directory == directory := by
  rw [← List.head?_filter, ← List.head?_filter, loadAll, loadAll, sameDirectories,
    List.filter_flatMap, List.filter_flatMap]
  congr 1
  apply List.flatMap_congr
  intro place _
  rw [List.filter_filterMap, List.filter_filterMap]
  apply List.filterMap_congr
  intro otherKind _
  -- No file but the one that is asked for passes the test, in either tree.
  by_cases same : otherKind = kind ∧ place = directory
  · obtain ⟨rfl, rfl⟩ := same
    rw [load_congr alike]
  · have passedOver : ∀ holder : FileTree,
        ((load holder place otherKind).kind == kind &&
          (load holder place otherKind).directory == directory) = false := by
      intro holder
      simpa [load] using same
    have nothing : ∀ holder : FileTree,
        (if (load holder place otherKind).rules.reversed.isEmpty then none
          else some (load holder place otherKind)).filter
            (fun file => file.kind == kind && file.directory == directory) = none := by
      intro holder
      split
      · rfl
      · rw [Option.filter_some, passedOver holder, if_neg Bool.false_ne_true]
    rw [nothing, nothing]

theorem judgeKind?_congr (sameDirectories : directoriesOf other = directoriesOf tree)
    {kind : Kind} {address : Address} (isDirectory : Bool) {count : Nat}
    (alike : ∀ number ≤ count, other.ReadsAlike tree (address.take number) kind.path) :
    judgeKind? (loadAll other respected) kind address isDirectory count =
      judgeKind? (loadAll tree respected) kind address isDirectory count := by
  have judgeAt_eq : ∀ number ≤ count,
      judgeKind?.judgeAt (loadAll other respected) kind address isDirectory number =
        judgeKind?.judgeAt (loadAll tree respected) kind address isDirectory number := by
    intro number within
    rw [judgeKind?.judgeAt, judgeKind?.judgeAt,
      find?_loadAll_congr sameDirectories (alike number within)]
  induction count with
  | zero => exact judgeAt_eq 0 (Nat.le_refl 0)
  | succ count ih =>
      rw [judgeKind?, judgeKind?, judgeAt_eq (count + 1) (Nat.le_refl _),
        ih (fun number within => alike number (Nat.le_succ_of_le within))
          fun number within => judgeAt_eq number (Nat.le_succ_of_le within)]

theorem Context.judge?_congr (sameDirectories : directoriesOf other = directoriesOf tree)
    {context : Context} {address : Address} (path : Text) (isDirectory : Bool)
    (alike : ∀ number ≤ address.length - 1, ∀ kind ∈ context.kinds,
      other.ReadsAlike tree (address.take number) kind.path) :
    { context with files := loadAll other respected }.judge? address path isDirectory =
      { context with files := loadAll tree respected }.judge? address path isDirectory := by
  have sameVerdict : ∀ kind ∈ context.kinds,
      judgeKind? (loadAll other respected) kind address isDirectory (address.length - 1) =
        judgeKind? (loadAll tree respected) kind address isDirectory (address.length - 1) := by
    intro kind counts
    exact judgeKind?_congr sameDirectories isDirectory
      fun number within => alike number within kind counts
  rw [Context.judge?, Context.judge?]
  rw [← List.head?_filterMap, ← List.head?_filterMap, List.filterMap_congr sameVerdict]
  rfl

/-- Whether an address is admitted does not change when the ignore files on the way do not. -/
theorem Context.admits_congr (sameDirectories : directoriesOf other = directoriesOf tree)
    {context : Context} {address : Address} (path : Text) (isDirectory : Bool)
    (alike : ∀ number ≤ address.length - 1, ∀ kind ∈ context.kinds,
      other.ReadsAlike tree (address.take number) kind.path) :
    { context with files := loadAll other respected }.admits address path isDirectory =
      { context with files := loadAll tree respected }.admits address path isDirectory := by
  rw [Context.admits, Context.admits, Context.judge?_congr sameDirectories path isDirectory alike]

theorem complaintsAbove_congr {address : Address}
    (alike : ∀ number < address.length, ∀ kind ∈ kinds respected,
      other.ReadsAlike tree (address.take number) kind.path) :
    complaintsAbove other respected address = complaintsAbove tree respected address := by
  rw [complaintsAbove, complaintsAbove]
  apply List.flatMap_congr
  intro number within
  apply List.flatMap_congr
  intro kind counts
  rw [load_congr (alike number (List.mem_range.mp within) kind counts)]

/-! ## The ignore file of the user -/

/-- The paths up to the first one that names another path. -/
def upToNaming (named? : Path → Option Path) : List Path → List Path
  | [] => []
  | path :: others => path :: if (named? path).isSome then [] else upToNaming named? others

theorem findSome?_congr_of_upToNaming {named? otherNamed? : Path → Option Path}
    {paths : List Path} (agree : ∀ path ∈ upToNaming named? paths, otherNamed? path = named? path) :
    paths.findSome? otherNamed? = paths.findSome? named? := by
  induction paths with
  | nil => rfl
  | cons path others ih =>
      rw [upToNaming, List.forall_mem_cons] at agree
      rw [List.findSome?_cons, List.findSome?_cons, agree.1]
      cases named : named? path with
      | some other => rfl
      | none =>
          rw [named] at agree
          exact ih agree.2

/-- The paths of the files from which the rules of the user are read: configurations up to the one
that names the ignore file, and this file. -/
def userPaths (tree : FileTree) (directory : Address) (environment : List (String × String))
    (home : Option String) : List Path :=
  upToNaming (namedFile? tree directory home) (configFiles environment home) ++
    (userFile? tree directory environment home).toList

variable {directory : Address} {environment : List (String × String)} {home : Option String}

theorem namedFile?_congr {path : Path} (alike : other.ReadsAlike tree directory path) :
    namedFile? other directory home path = namedFile? tree directory home path := by
  rw [FileTree.ReadsAlike] at alike
  rw [namedFile?, namedFile?, alike]

/-- The configurations of the user name the same ignore file when they hold the same. -/
theorem userFile?_congr (alike : ∀ path ∈ userPaths tree directory environment home,
      other.ReadsAlike tree directory path) :
    userFile? other directory environment home = userFile? tree directory environment home := by
  rw [userFile?, userFile?, findSome?_congr_of_upToNaming]
  intro path isRead
  exact namedFile?_congr (alike path (List.mem_append_left _ isRead))

/-- The rules of the user stay the same when the files do from which they are read. -/
theorem userRules_congr (alike : ∀ path ∈ userPaths tree directory environment home,
      other.ReadsAlike tree directory path) :
    userRules other directory environment home = userRules tree directory environment home := by
  unfold userRules
  rw [userFile?_congr alike]
  cases userFile : userFile? tree directory environment home with
  | none => rfl
  | some path =>
      have sameBytes := alike path (by simp [userPaths, userFile])
      rw [FileTree.ReadsAlike] at sameBytes
      dsimp only
      cases readOther : other.read directory path <;> cases readTree : tree.read directory path <;>
        simp_all [Except.toOption]

end TidyLines.Ignore
