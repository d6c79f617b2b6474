import Mathlib.Data.Set.Basic
import TidyLines.Proofs.FileTree.Rewriting

/-!
# Trees that differ in some files

Two trees that are the same but for regular files at some addresses (`FileTree.DifferAt`) lead the
same ways, except those that end at one of these addresses (`FileTree.DifferAt.resolve_eq_ok_iff`):
a way does not go on behind a file, and where there is a file in one of the trees there is no link
and no directory in the other.  What is read by other ways is the same
(`FileTree.DifferAt.readsAlike`).
-/

namespace TidyLines.FileTree

/-- What is at an address, if anything is, is a regular file. -/
def HoldsNoOther (tree : FileTree) (address : Address) : Prop :=
  ∀ entry, tree.get? address = some entry → ∃ bytes, entry = .file bytes

/-- Two trees are the same but for regular files at some addresses, where files may have been made,
deleted or changed. -/
structure DifferAt (before after : FileTree) (places : Set Address) : Prop where
  get?_eq : ∀ address ∉ places, after.get? address = before.get? address
  files_before : ∀ address ∈ places, before.HoldsNoOther address
  files_after : ∀ address ∈ places, after.HoldsNoOther address

/-- A way from a file leads nowhere else. -/
theorem eq_of_walkTo_file {tree : FileTree} {writing : Bool} {links : Nat} {here address : Address}
    {steps : List String} {bytes : ByteArray} (atFile : tree.get? here = some (.file bytes))
    (leads : tree.walkTo writing links here steps = .ok address) : address = here := by
  cases steps with
  | nil => simpa [walkTo] using leads.symm
  | cons step rest =>
      rw [walkTo, isDirectoryAt, atFile] at leads
      cases leads

/-- A file is written where there is a file or nothing. -/
theorem differAt_put {tree : FileTree} {address : Address} (below : address ≠ [])
    (holdsNoOther : tree.HoldsNoOther address) (bytes : ByteArray) :
    tree.DifferAt (tree.put address (.file bytes)) {address} where
  get?_eq other elsewhere := by
    have differs : other ≠ address := elsewhere
    rw [get?_put tree address other _ below, if_neg differs]
  files_before := by
    rintro _ rfl
    exact holdsNoOther
  files_after := by
    rintro other rfl entry found
    rw [get?_put tree other other _ below, if_pos rfl] at found
    exact ⟨bytes, (Option.some.inj found).symm⟩

namespace DifferAt

variable {before after : FileTree} {places : Set Address} (differ : before.DifferAt after places)
  {address : Address}

include differ

theorem symm : after.DifferAt before places where
  get?_eq other elsewhere := (differ.get?_eq other elsewhere).symm
  files_before := differ.files_after
  files_after := differ.files_before

/-- There is no directory and no link at an address where the trees differ. -/
theorem notMem_of_bytes?_eq_none {entry : Entry} (found : before.get? address = some entry)
    (noFile : entry.bytes? = none) : address ∉ places := by
  intro isPlace
  obtain ⟨bytes, rfl⟩ := differ.files_before address isPlace entry found
  cases noFile

theorem isDirectoryAt_of (isDirectory : before.isDirectoryAt address = true) :
    after.isDirectoryAt address = true := by
  rw [isDirectoryAt_iff] at isDirectory ⊢
  rw [differ.get?_eq address (differ.notMem_of_bytes?_eq_none isDirectory rfl), isDirectory]

theorem isDirectoryAt_eq (address : Address) :
    after.isDirectoryAt address = before.isDirectoryAt address :=
  Bool.eq_iff_iff.mpr ⟨differ.symm.isDirectoryAt_of, differ.isDirectoryAt_of⟩

theorem leadsThrough_eq (address : Address) (names : List String) :
    after.leadsThrough address names = before.leadsThrough address names := by
  simp only [leadsThrough, differ.isDirectoryAt_eq]

/-- What leads elsewhere in one tree, or to a file of the other one, leads there in the other. -/
theorem walkTo_of (staysFile : address ∈ places → ∃ bytes, after.get? address = some (.file bytes))
    {links : Nat} {here : Address} {steps : List String}
    (leads : before.walkTo false links here steps = .ok address) :
    after.walkTo false links here steps = .ok address := by
  fun_induction walkTo before false links here steps with
  | case1 => rwa [walkTo]
  | case2 links here step rest isDirectory isTrivial ih =>
      rw [walkTo, if_pos (differ.isDirectoryAt_of isDirectory), if_pos isTrivial, ih leads]
  | case3 links here rest isDirectory notTrivial ih =>
      rw [walkTo, if_pos (differ.isDirectoryAt_of isDirectory), if_neg notTrivial, if_pos rfl,
        ih leads]
  | case5 => contradiction
  | case8 here step rest isDirectory notTrivial notDots fits target found links ih =>
      have same := differ.get?_eq _ (differ.notMem_of_bytes?_eq_none found rfl)
      rw [dite_eq_ite] at ih
      rw [walkTo]
      simp [differ.isDirectoryAt_of isDirectory, notTrivial, notDots, fits, same, found, ih leads]
  | case9 links here step rest isDirectory notTrivial notDots fits entry noLink found ih =>
      have sameKind : ∃ other, after.get? (here ++ [step]) = some other ∧
          ∀ target, other ≠ .link target := by
        by_cases isPlace : here ++ [step] ∈ places
        · -- The way ends at the file that is there.
          obtain ⟨bytes, rfl⟩ := differ.files_before _ isPlace entry found
          obtain rfl := eq_of_walkTo_file found leads
          obtain ⟨others, foundAfter⟩ := staysFile isPlace
          exact ⟨.file others, foundAfter, by simp⟩
        · exact ⟨entry, (differ.get?_eq _ isPlace).trans found, noLink⟩
      obtain ⟨other, foundAfter, noLinkAfter⟩ := sameKind
      rw [walkTo]
      cases other with
      | link target => exact absurd rfl (noLinkAfter target)
      | file bytes =>
          simp [differ.isDirectoryAt_of isDirectory, notTrivial, notDots, fits, foundAfter,
            ih leads]
      | directory =>
          simp [differ.isDirectoryAt_of isDirectory, notTrivial, notDots, fits, foundAfter,
            ih leads]
  | _ => cases leads

theorem resolve_of (staysFile : address ∈ places → ∃ bytes, after.get? address = some (.file bytes))
    {directory : Address} {path : Path} (leads : before.resolve directory path = .ok address) :
    after.resolve directory path = .ok address := by
  rw [resolve] at leads ⊢
  cases spelled : checkSpelling path with
  | error fault => simp [spelled, bind, Except.bind] at leads
  | ok _ =>
      rw [spelled] at leads
      exact differ.walkTo_of staysFile leads

theorem resolve_eq_ok_iff (elsewhere : address ∉ places) (directory : Address) (path : Path) :
    after.resolve directory path = .ok address ↔ before.resolve directory path = .ok address :=
  ⟨differ.symm.resolve_of fun isPlace => absurd isPlace elsewhere,
    differ.resolve_of fun isPlace => absurd isPlace elsewhere⟩

/-- If no files were made, what does not lead to one of the places reads as before. -/
theorem readsAlike (wereFiles : ∀ place ∈ places, ∃ bytes, before.get? place = some (.file bytes))
    {directory : Address} {path : Path}
    (elsewhere : ∀ address, before.resolve directory path = .ok address → address ∉ places) :
    after.ReadsAlike before directory path := by
  rw [ReadsAlike]
  ext bytes
  rw [toOption_read_eq_some_iff, toOption_read_eq_some_iff]
  constructor
  · rintro ⟨address, leads, found⟩
    have ledBefore := differ.symm.resolve_of (wereFiles address) leads
    rw [differ.get?_eq address (elsewhere address ledBefore)] at found
    exact ⟨address, ledBefore, found⟩
  · rintro ⟨address, leads, found⟩
    have isElsewhere := elsewhere address leads
    exact ⟨address, (differ.resolve_eq_ok_iff isElsewhere directory path).mpr leads,
      (differ.get?_eq address isElsewhere).trans found⟩

end DifferAt
end TidyLines.FileTree
