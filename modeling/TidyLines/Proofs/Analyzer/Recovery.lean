import TidyLines.Proofs.Analyzer.Convergence
import TidyLines.Proofs.Analyzer.Stopping
import TidyLines.Proofs.Discovery.Changed

/-!
# Repeating a run until it succeeds

A run that writes and fails at a file that is no text can be repeated when this file has been
deleted or has become a text, and so on with the next one (`Analyzer.Recovers`).  If mending twice
is mending once and no ignore file is touched, this ends, and all other files are then as if the
run had been made once without the files that are no texts (`Analyzer.Advances`).  The invariant is
`Analyzer.Midway`: a file that has not been put right holds its old bytes or the mended ones.
-/

namespace TidyLines

/-! ## Putting a file right -/

namespace FileTree

/-- A file is deleted, or it becomes a text. -/
inductive Repairs (tree : FileTree) (address : Address) : FileTree → Prop where
  | deleted : Repairs tree address (tree.without [address])
  | rewritten (text : Text) : Repairs tree address (tree.put address (.file (Text.encode text)))

theorem hasFilesAt_singleton {tree : FileTree} {address : Address} {bytes : ByteArray}
    (isFile : tree.get? address = some (.file bytes)) : tree.HasFilesAt [address] := by
  intro other listed
  obtain rfl := List.mem_singleton.mp listed
  exact ⟨bytes, isFile⟩

namespace Repairs

variable {tree mended : FileTree} {address : Address} {bytes : ByteArray}
  (repairs : tree.Repairs address mended) (isFile : tree.get? address = some (.file bytes))

include repairs isFile

theorem get?_of_ne {other : Address} (elsewhere : other ≠ address) :
    mended.get? other = tree.get? other := by
  cases repairs with
  | deleted =>
      exact get?_without_of_not_mem (hasFilesAt_singleton isFile) (by simpa using elsewhere)
  | rewritten text => rw [get?_put _ _ _ _ (ne_nil_of_file isFile), if_neg elsewhere]

theorem get?_self : mended.get? address = none ∨
    ∃ text, mended.get? address = some (.file (Text.encode text)) := by
  cases repairs with
  | deleted =>
      refine Or.inl ?_
      rw [get?_without (hasFilesAt_singleton isFile), if_pos (List.mem_singleton_self address)]
  | rewritten text =>
      exact Or.inr ⟨text, by rw [get?_put _ _ _ _ (ne_nil_of_file isFile), if_pos rfl]⟩

/-- A repaired tree is as well formed as it was, with the same directories. -/
theorem keeps_directories (wellFormed : tree.WellFormed) :
    mended.WellFormed ∧ Ignore.directoriesOf mended = Ignore.directoriesOf tree := by
  cases repairs with
  | deleted =>
      exact ⟨wellFormed.without _,
        Ignore.directoriesOf_without wellFormed (hasFilesAt_singleton isFile)⟩
  | rewritten text =>
      have asRewrite : tree.put address (.file (Text.encode text)) =
          tree.rewrite (changeAt address fun _ => Text.encode text) :=
        put_eq_rewrite wellFormed isFile fun _ => Text.encode text
      rw [asRewrite]
      exact ⟨wellFormed.rewrite _, Ignore.directoriesOf_rewrite _⟩

end Repairs
end FileTree

namespace Analyzer

variable (analyzer : Analyzer)

/-! ## Runs and repairs in turn -/

/-- Runs that write have failed one after the other, each at one of the given files, and each time
the file was put right. -/
inductive Recovers (workspace : Workspace) : List FoundFile → FileTree → Prop where
  | start : Recovers workspace [] workspace.tree
  | repaired {done : List FoundFile} {tree mended : FileTree} {file : FoundFile}
      (soFar : Recovers workspace done tree)
      (isFound : file ∈ analyzer.undecodable { workspace with tree })
      (failed : (analyzer.format .write { workspace with tree }).2 =
        .error (.undecodable file.path))
      (repairs : (analyzer.format .write { workspace with tree }).1.Repairs file.address mended) :
      Recovers workspace (done ++ [file]) mended

/-- Of the files found, a search consults only texts that mending leaves alone. -/
def SparesIgnoreFiles (workspace : Workspace) : Prop :=
  ∀ files, analyzer.discover workspace = .ok files → ∀ file ∈ files,
    analyzer.search.Consults workspace file.address →
      ∃ text, Text.decode? file.bytes = some text ∧ analyzer.formatText text = text

/-- What makes it possible to repeat runs that fail: the rules look at texts alone, mending twice is
mending once, and no file that is written decides what is found. -/
structure Repeatable (workspace : Workspace) (root : Address) (files : List FoundFile) : Prop where
  wellFormed : workspace.tree.WellFormed
  leads : workspace.tree.resolve workspace.directory analyzer.root = .ok root
  is_directory : workspace.tree.isDirectoryAt root = true
  discover_eq : analyzer.discover workspace = .ok files
  on_text : ∀ rule ∈ analyzer.rules, rule.DependsOnText
  fails_on_undecodable : analyzer.failOnUndecodable = true
  idempotent : ∀ text, analyzer.formatText (analyzer.formatText text) = analyzer.formatText text
  spares : analyzer.SparesIgnoreFiles workspace

/-- What holds after each run and after each repair: some of the files that are no texts have been
put right, and others are left. -/
structure Midway (workspace : Workspace) (files done left : List FoundFile) (tree : FileTree) :
    Prop where
  wellFormed : tree.WellFormed
  directoriesOf_eq : Ignore.directoriesOf tree = Ignore.directoriesOf workspace.tree
  skipped_eq : skipped files = done ++ left
  put_right : ∀ file ∈ done, tree.get? file.address = none ∨
    ∃ text, tree.get? file.address = some (.file (Text.encode text))
  kept_or_mended : ∀ file ∈ files, file ∉ done → ∃ bytes,
    tree.get? file.address = some (.file bytes) ∧
      (bytes = file.bytes ∨ bytes = analyzer.mendBytes file.path file.bytes)
  others_kept : ∀ address, (∀ file ∈ files, file.address ≠ address) →
    tree.get? address = workspace.tree.get? address

variable {analyzer} {workspace : Workspace} {files done left : List FoundFile} {tree : FileTree}
  {root : Address}

namespace Repeatable

variable (repeatable : analyzer.Repeatable workspace root files)

include repeatable

theorem holds : workspace.tree.Holds files :=
  analyzer.holds_of_discover repeatable.wellFormed repeatable.discover_eq

theorem mendBytes_mendBytes (path : Path) (bytes : ByteArray) :
    analyzer.mendBytes path (analyzer.mendBytes path bytes) = analyzer.mendBytes path bytes := by
  cases decoded : Text.decode? bytes with
  | none =>
      rw [analyzer.mendBytes_of_no_text path decoded, analyzer.mendBytes_of_no_text path decoded]
  | some text =>
      rw [mendBytes_of_text repeatable.on_text path decoded,
        mendBytes_of_text repeatable.on_text path (Text.decode?_encode _), repeatable.idempotent]

/-- Before the first run no file has been put right. -/
theorem midway_start : analyzer.Midway workspace files [] (skipped files) workspace.tree where
  wellFormed := repeatable.wellFormed
  directoriesOf_eq := rfl
  skipped_eq := rfl
  put_right _ isDone := absurd isDone List.not_mem_nil
  kept_or_mended file member _ := ⟨file.bytes, repeatable.holds.get?_eq file member, Or.inl rfl⟩
  others_kept _ _ := rfl

theorem hasFilesAt_skipped :
    workspace.tree.HasFilesAt ((skipped files).map FoundFile.address) := by
  intro address listed
  obtain ⟨file, isSkipped, rfl⟩ := List.mem_map.mp listed
  exact ⟨file.bytes, repeatable.holds.get?_eq file (mem_skipped.mp isSkipped).1⟩

theorem tree_withoutUndecodable : (analyzer.withoutUndecodable workspace).tree =
    workspace.tree.without ((skipped files).map FoundFile.address) := by
  rw [withoutUndecodable, analyzer.undecodable_of_discover repeatable.discover_eq]
  rfl

theorem get?_withoutUndecodable {file : FoundFile} (isSkipped : file ∈ skipped files) :
    (analyzer.withoutUndecodable workspace).tree.get? file.address = none := by
  rw [repeatable.tree_withoutUndecodable, FileTree.get?_without repeatable.hasFilesAt_skipped,
    if_pos (List.mem_map_of_mem isSkipped)]

/-- In a tree without the files that are no texts all of them have been put right. -/
theorem midway_withoutUndecodable :
    analyzer.Midway workspace files (skipped files) []
      (analyzer.withoutUndecodable workspace).tree := by
  have hasFiles := repeatable.hasFilesAt_skipped
  have sameTree := repeatable.tree_withoutUndecodable
  constructor
  case wellFormed => exact repeatable.wellFormed.without _
  case directoriesOf_eq =>
    rw [sameTree]
    exact Ignore.directoriesOf_without repeatable.wellFormed hasFiles
  case skipped_eq => exact (List.append_nil _).symm
  case put_right =>
    intro file isSkipped
    exact Or.inl (repeatable.get?_withoutUndecodable isSkipped)
  case kept_or_mended =>
    intro file member notSkipped
    have isText : Text.decode? file.bytes ≠ none := by
      intro noText
      exact notSkipped (List.mem_filter.mpr ⟨member, by simp [noText]⟩)
    rw [Ne, ← address_mem_skipped_iff repeatable.holds.addresses_nodup member] at isText
    rw [sameTree, FileTree.get?_without_of_not_mem hasFiles isText]
    exact ⟨file.bytes, repeatable.holds.get?_eq file member, Or.inl rfl⟩
  case others_kept =>
    intro address nowhere
    rw [sameTree]
    apply FileTree.get?_without_of_not_mem hasFiles
    intro listed
    obtain ⟨file, isSkipped, here⟩ := List.mem_map.mp listed
    exact nowhere file (List.mem_filter.mp isSkipped).1 here

end Repeatable

namespace Midway

section Files

variable (midway : analyzer.Midway workspace files done left tree)

include midway

theorem no_text_of_mem {file : FoundFile} (isSkipped : file ∈ done ++ left) :
    file ∈ files ∧ Text.decode? file.bytes = none := by
  rw [← midway.skipped_eq] at isSkipped
  simpa [skipped] using isSkipped

theorem notMem_done (apart : (files.map FoundFile.address).Nodup) {file : FoundFile}
    (isLeft : file ∈ left) : file ∉ done := by
  have nodup : (done ++ left).Nodup := by
    rw [← midway.skipped_eq]
    exact (List.Nodup.of_map _ apart).sublist List.filter_sublist
  exact fun isDone => List.disjoint_of_nodup_append nodup isDone isLeft

/-- A file that is no text and is left is as it was found. -/
theorem get?_of_no_text {file : FoundFile} (member : file ∈ files)
    (noText : Text.decode? file.bytes = none) (notDone : file ∉ done) :
    tree.get? file.address = some (.file file.bytes) := by
  obtain ⟨bytes, held, rfl | rfl⟩ := midway.kept_or_mended file member notDone
  · exact held
  · rwa [analyzer.mendBytes_of_no_text file.path noText] at held

/-- What is no text by now was none before, and is left as it was found. -/
theorem mem_left_of_no_text {file : FoundFile} (member : file ∈ files) {bytes : ByteArray}
    (held : tree.get? file.address = some (.file bytes)) (noText : Text.decode? bytes = none) :
    file ∈ left ∧ bytes = file.bytes := by
  have notDone : file ∉ done := by
    intro isDone
    rcases midway.put_right file isDone with gone | ⟨text, isText⟩
    · cases gone.symm.trans held
    · have sameBytes : Text.encode text = bytes := by simpa using isText.symm.trans held
      rw [← sameBytes, Text.decode?_encode] at noText
      cases noText
  obtain ⟨others, isFile, either⟩ := midway.kept_or_mended file member notDone
  obtain rfl : others = bytes := by simpa using isFile.symm.trans held
  have wasNoText : Text.decode? file.bytes = none := by
    rcases either with same | mended
    · rwa [← same]
    · simpa [mended, decode?_mendBytes] using noText
  rw [analyzer.mendBytes_of_no_text file.path wasNoText, or_self] at either
  refine ⟨?_, either⟩
  have isSkipped : file ∈ done ++ left := by
    rw [← midway.skipped_eq, skipped, List.mem_filter]
    exact ⟨member, by simp [wasNoText]⟩
  exact (List.mem_append.mp isSkipped).resolve_left notDone

theorem exists_of_differs {address : Address}
    (differs : tree.get? address ≠ workspace.tree.get? address) :
    ∃ file ∈ files, file.address = address := by
  by_contra nowhere
  exact differs (midway.others_kept address fun file member same => nowhere ⟨file, member, same⟩)

theorem wellFormed_now : ({ workspace with tree } : Workspace).tree.WellFormed :=
  midway.wellFormed

end Files

/-! ### The next run -/

section Runs

variable (midway : analyzer.Midway workspace files done left tree)
  (repeatable : analyzer.Repeatable workspace root files)

include midway repeatable

/-- A search consults none of the files that differ. -/
theorem filesChange : analyzer.search.FilesChange workspace tree where
  wellFormed := midway.wellFormed
  directoriesOf_eq := midway.directoriesOf_eq
  were_files address differs := by
    obtain ⟨file, member, rfl⟩ := midway.exists_of_differs differs
    exact ⟨file.bytes, repeatable.holds.get?_eq file member⟩
  holds_no_other address differs entry held := by
    obtain ⟨file, member, rfl⟩ := midway.exists_of_differs differs
    by_cases isDone : file ∈ done
    · rcases midway.put_right file isDone with gone | ⟨text, isText⟩
      · cases gone.symm.trans held
      · exact ⟨_, Option.some.inj (held.symm.trans isText)⟩
    · obtain ⟨bytes, isFile, -⟩ := midway.kept_or_mended file member isDone
      exact ⟨bytes, Option.some.inj (held.symm.trans isFile)⟩
  not_consulted address differs consulted := by
    obtain ⟨file, member, rfl⟩ := midway.exists_of_differs differs
    obtain ⟨text, decoded, unchanged⟩ :=
      repeatable.spares files repeatable.discover_eq file member consulted
    have notDone : file ∉ done := by
      intro isDone
      have noText := (midway.no_text_of_mem (List.mem_append_left left isDone)).2
      cases noText.symm.trans decoded
    have mendedSame : analyzer.mendBytes file.path file.bytes = file.bytes := by
      rw [mendBytes_of_text repeatable.on_text file.path decoded, unchanged,
        Text.encode_of_decode? decoded]
    obtain ⟨bytes, held, kept⟩ := midway.kept_or_mended file member notDone
    rw [mendedSame, or_self] at kept
    rw [held, kept, repeatable.holds.get?_eq file member] at differs
    exact differs rfl

theorem discover_eq : analyzer.discover { workspace with tree } =
    .ok (files.filterMap fun file => file.reread? tree) := by
  rw [discover_eq_ok_iff, Search.find_of_filesChange (midway.filesChange repeatable)
    repeatable.wellFormed repeatable.leads repeatable.is_directory,
    analyzer.discover_eq_ok_iff.mp repeatable.discover_eq]
  rfl

/-- The next run finds those files not to be texts that are left. -/
theorem undecodable_eq : analyzer.undecodable { workspace with tree } = left := by
  have sorted := analyzer.search.pairwise_order_lt_find repeatable.wellFormed
    (analyzer.discover_eq_ok_iff.mp repeatable.discover_eq)
  have sortedLater := analyzer.pairwise_order_lt_undecodable midway.wellFormed_now
  have leftInOrder : left.Sublist files := by
    refine (List.sublist_append_right done left).trans ?_
    rw [← midway.skipped_eq]
    exact List.filter_sublist
  refine Search.eq_of_pairwise_order_lt sortedLater (sorted.sublist leftInOrder) ?_
  intro file
  rw [analyzer.undecodable_of_discover (midway.discover_eq repeatable), skipped, List.mem_filter,
    List.mem_filterMap]
  simp only [FoundFile.reread?_eq_some_iff, Option.isNone_iff_eq_none]
  constructor
  · rintro ⟨⟨original, member, held, samePath, sameAddress⟩, noText⟩
    obtain ⟨isLeft, sameBytes⟩ := midway.mem_left_of_no_text member held noText
    have same : file = original := by
      rw [FoundFile.mk.injEq]
      exact ⟨samePath, sameAddress, sameBytes⟩
    rwa [same]
  · intro isLeft
    obtain ⟨member, noText⟩ := midway.no_text_of_mem (List.mem_append_right done isLeft)
    have notDone := midway.notMem_done repeatable.holds.addresses_nodup isLeft
    exact ⟨⟨file, member, midway.get?_of_no_text member noText notDone, rfl, rfl⟩, noText⟩

/-- The next run stops at the first file that is left, if it fails because of such a file. -/
theorem head?_of_fails {path : Path}
    (failed : (analyzer.format .write { workspace with tree }).2 = .error (.undecodable path)) :
    ∃ file, left.head? = some file ∧ file.path = path := by
  rw [← midway.undecodable_eq repeatable]
  exact analyzer.head?_undecodable_of_readable midway.wellFormed_now
    ((analyzer.format_eq_undecodable_iff midway.wellFormed_now).mp failed)

/-- If all files can be read, a file that is left fails the next run. -/
theorem fails_of_opensFound (opensFound : analyzer.OpensFound { workspace with tree })
    {file : FoundFile} {others : List FoundFile} (isNext : left = file :: others) :
    (analyzer.format .write { workspace with tree }).2 = .error (.undecodable file.path) := by
  have isUndecodable : file ∈ analyzer.undecodable { workspace with tree } := by
    rw [midway.undecodable_eq repeatable, isNext]
    exact List.mem_cons_self
  obtain ⟨path, unreadable⟩ := analyzer.exists_undecodable_of_opensFound midway.wellFormed_now
    repeatable.fails_on_undecodable opensFound isUndecodable
  have failed : (analyzer.format .write { workspace with tree }).2 =
      .error (.undecodable path) :=
    (analyzer.format_eq_undecodable_iff midway.wellFormed_now).mpr unreadable
  obtain ⟨first, isFirst, rfl⟩ := midway.head?_of_fails repeatable failed
  rw [isNext, List.head?_cons, Option.some.injEq] at isFirst
  rwa [isFirst]

/-- A file can be read under its path if and only if that was so at first. -/
theorem canRead_iff {file later : FoundFile} (member : file ∈ files)
    (reread : file.reread? tree = some later) :
    ({ workspace with tree } : Workspace).CanRead later.path ↔ workspace.CanRead file.path := by
  have foundLater := midway.discover_eq repeatable
  have memberLater : later ∈ files.filterMap fun file => file.reread? tree :=
    List.mem_filterMap.mpr ⟨file, member, reread⟩
  obtain ⟨-, samePath, sameAddress⟩ := FoundFile.reread?_eq_some_iff.mp reread
  have opens := analyzer.opens_of_discover repeatable.wellFormed repeatable.discover_eq
  have opensLater := analyzer.opens_of_discover midway.wellFormed_now foundLater
  obtain ⟨leadsLater, isDirectoryLater⟩ := (midway.filesChange repeatable).leads_of_isDirectoryAt
    repeatable.leads repeatable.is_directory
  have isWalked : file ∈ analyzer.search.walked workspace root := by
    rw [analyzer.search.eq_filesBelow_of_find repeatable.leads repeatable.is_directory
      (analyzer.discover_eq_ok_iff.mp repeatable.discover_eq)] at member
    exact analyzer.search.mem_walked_of_mem_filesBelow member
  have isWalkedLater : later ∈ analyzer.search.walked { workspace with tree } root := by
    rw [analyzer.search.eq_filesBelow_of_find leadsLater isDirectoryLater
      (analyzer.discover_eq_ok_iff.mp foundLater)] at memberLater
    exact analyzer.search.mem_walked_of_mem_filesBelow memberLater
  have sameWay := Search.resolve_eq_of_mem_walked repeatable.wellFormed midway.wellFormed_now
    repeatable.leads leadsLater isWalked isWalkedLater samePath sameAddress
  rw [opens.canRead_iff member, opensLater.canRead_iff memberLater, sameWay, sameAddress]

/-- If all files found at first can be read, those found now can. -/
theorem opensFound (opensFirst : analyzer.OpensFound workspace) :
    analyzer.OpensFound { workspace with tree } := by
  intro others found later member
  obtain rfl := Except.ok.inj ((midway.discover_eq repeatable).symm.trans found)
  obtain ⟨file, wasFound, reread⟩ := List.mem_filterMap.mp member
  exact (midway.canRead_iff repeatable wasFound reread).mpr
    (opensFirst files repeatable.discover_eq file wasFound)

theorem get?_format_write_cases (address : Address) :
    (analyzer.format .write { workspace with tree }).1.get? address = tree.get? address ∨
      ∃ file ∈ files, ∃ bytes, file.address = address ∧
        tree.get? address = some (.file bytes) ∧
        (analyzer.format .write { workspace with tree }).1.get? address =
          some (.file (analyzer.mendBytes file.path bytes)) := by
  rcases Analyzer.get?_format_write_cases midway.wellFormed_now (midway.discover_eq repeatable)
    address with same | ⟨later, isLater, rfl, mended⟩
  · exact Or.inl same
  · obtain ⟨file, member, reread⟩ := List.mem_filterMap.mp isLater
    obtain ⟨held, samePath, sameAddress⟩ := FoundFile.reread?_eq_some_iff.mp reread
    rw [← sameAddress] at held
    rw [samePath] at mended
    exact Or.inr ⟨file, member, later.bytes, sameAddress.symm, held, mended⟩

/-- One more run keeps the invariant, whether it fails or not. -/
theorem format_write : analyzer.Midway workspace files done left
    (analyzer.format .write { workspace with tree }).1 := by
  have written := analyzer.format_write_fst_of_discover midway.wellFormed_now
    (midway.discover_eq repeatable)
  have cases := midway.get?_format_write_cases repeatable
  constructor
  case wellFormed =>
    rw [written]
    exact midway.wellFormed.rewrite _
  case directoriesOf_eq =>
    rw [written, ← midway.directoriesOf_eq]
    exact Ignore.directoriesOf_rewrite _
  case skipped_eq => exact midway.skipped_eq
  case put_right =>
    intro file isDone
    have before := midway.put_right file isDone
    rcases cases file.address with same | ⟨other, -, bytes, -, held, mended⟩
    · rwa [same]
    · rw [held] at before
      obtain ⟨text, isText⟩ := before.resolve_left (by simp)
      obtain rfl : bytes = Text.encode text := by simpa using isText
      rw [mendBytes_of_text repeatable.on_text other.path (Text.decode?_encode text)] at mended
      exact Or.inr ⟨_, mended⟩
  case kept_or_mended =>
    intro file member notDone
    obtain ⟨bytes, isFile, either⟩ := midway.kept_or_mended file member notDone
    rcases cases file.address with same | ⟨other, otherMember, others, sameAddress, held, mended⟩
    · exact ⟨bytes, same.trans isFile, either⟩
    · obtain rfl := List.inj_on_of_nodup_map repeatable.holds.addresses_nodup otherMember member
        sameAddress
      obtain rfl : others = bytes := by simpa using held.symm.trans isFile
      refine ⟨_, mended, Or.inr ?_⟩
      rcases either with rfl | rfl
      · rfl
      · exact repeatable.mendBytes_mendBytes other.path other.bytes
  case others_kept =>
    intro address elsewhere
    rcases cases address with same | ⟨file, member, bytes, here, -⟩
    · exact same.trans (midway.others_kept address elsewhere)
    · exact absurd here (elsewhere file member)

end Runs

/-- Putting the next file right keeps the invariant. -/
theorem repaired {file : FoundFile} {mended : FileTree}
    (midway : analyzer.Midway workspace files done (file :: left) tree)
    (repeatable : analyzer.Repeatable workspace root files)
    (repairs : tree.Repairs file.address mended) :
    analyzer.Midway workspace files (done ++ [file]) left mended := by
  obtain ⟨member, noText⟩ := midway.no_text_of_mem
    (List.mem_append_right done (List.mem_cons_self (l := left)))
  have notDone := midway.notMem_done repeatable.holds.addresses_nodup List.mem_cons_self
  have elsewhere : ∀ other ∈ files, other ≠ file → other.address ≠ file.address :=
    fun other otherMember differs same => differs
      (List.inj_on_of_nodup_map repeatable.holds.addresses_nodup otherMember member same)
  have isFile := midway.get?_of_no_text member noText notDone
  obtain ⟨wellFormedAfter, sameDirectories⟩ := repairs.keeps_directories isFile midway.wellFormed
  constructor
  case wellFormed => exact wellFormedAfter
  case directoriesOf_eq => exact sameDirectories.trans midway.directoriesOf_eq
  case skipped_eq => rw [midway.skipped_eq, List.append_assoc, List.singleton_append]
  case put_right =>
    intro other isDone
    rcases List.mem_append.mp isDone with before | now
    · have otherMember := (midway.no_text_of_mem (List.mem_append_left _ before)).1
      have differs : other ≠ file := fun same => notDone (same ▸ before)
      rw [repairs.get?_of_ne isFile (elsewhere other otherMember differs)]
      exact midway.put_right other before
    · obtain rfl := List.mem_singleton.mp now
      exact repairs.get?_self isFile
  case kept_or_mended =>
    intro other otherMember otherNotDone
    rw [List.mem_append, List.mem_singleton, not_or] at otherNotDone
    rw [repairs.get?_of_ne isFile (elsewhere other otherMember otherNotDone.2)]
    exact midway.kept_or_mended other otherMember otherNotDone.1
  case others_kept =>
    intro address nowhere
    rw [repairs.get?_of_ne isFile (nowhere file member).symm]
    exact midway.others_kept address nowhere

/-! ### The last run -/

section LastRun

variable (midway : analyzer.Midway workspace files done [] tree)
  (repeatable : analyzer.Repeatable workspace root files)

include midway repeatable

theorem refused?_eq_none (opensFound : analyzer.OpensFound { workspace with tree }) :
    analyzer.refused? workspace.directory tree
      (files.filterMap fun file => file.reread? tree) = none := by
  have found := midway.discover_eq repeatable
  have opens := analyzer.opens_of_discover midway.wellFormed_now found
  have allTexts : skipped (files.filterMap fun file => file.reread? tree) = [] := by
    rw [← analyzer.undecodable_of_discover found, midway.undecodable_eq repeatable]
  refine (analyzer.refused?_eq_none_iff).mpr fun file member => ?_
  refine (analyzer.refusal?_eq_none_iff opens member).mpr
    ⟨(opens.canRead_iff member).mp (opensFound _ found file member), fun _ => ?_⟩
  rw [Option.isSome_iff_ne_none]
  intro noText
  have isSkipped := mem_skipped.mpr ⟨member, noText⟩
  rw [allTexts] at isSkipped
  cases isSkipped

theorem exists_report (opensFound : analyzer.OpensFound { workspace with tree }) :
    ∃ report, (analyzer.format .write { workspace with tree }).2 = .ok report := by
  rw [analyzer.format_snd_eq midway.wellFormed_now,
    analyzer.readable_eq_ok_iff.mpr
      ⟨midway.discover_eq repeatable, midway.refused?_eq_none repeatable opensFound⟩]
  exact ⟨_, rfl⟩

/-- If all files can be read in the end, the texts among them could be read from the start. -/
theorem opensFound_withoutUndecodable
    (opensFound : analyzer.OpensFound { workspace with tree }) :
    analyzer.OpensFound (analyzer.withoutUndecodable workspace) := by
  have reference := repeatable.midway_withoutUndecodable
  intro others found later member
  obtain rfl := Except.ok.inj ((reference.discover_eq repeatable).symm.trans found)
  obtain ⟨file, wasFound, reread⟩ := List.mem_filterMap.mp member
  have held := (FoundFile.reread?_eq_some_iff.mp reread).1
  have notDone : file ∉ done := by
    intro isDone
    have isSkipped : file ∈ skipped files := by rwa [midway.skipped_eq, List.append_nil]
    cases (repeatable.get?_withoutUndecodable isSkipped).symm.trans held
  obtain ⟨bytes, heldNow, -⟩ := midway.kept_or_mended file wasFound notDone
  have rereadNow : file.reread? tree = some { file with bytes } :=
    FoundFile.reread?_eq_some_iff.mpr ⟨heldNow, rfl, rfl⟩
  have canRead := opensFound _ (midway.discover_eq repeatable) _
    (List.mem_filterMap.mpr ⟨file, wasFound, rereadNow⟩)
  exact (reference.canRead_iff repeatable wasFound reread).mpr
    ((midway.canRead_iff repeatable wasFound rereadNow).mp canRead)

/-- When all files have been put right, the texts that were found at first are mended. -/
theorem get?_format_write (opensFound : analyzer.OpensFound { workspace with tree })
    {address : Address} (notSkipped : ∀ file ∈ skipped files, file.address ≠ address) :
    (analyzer.format .write { workspace with tree }).1.get? address =
      (workspace.tree.rewrite (analyzer.mending files)).get? address := by
  by_cases listed : ∃ file ∈ files, file.address = address
  · obtain ⟨file, member, rfl⟩ := listed
    have notDone : file ∉ done := by
      intro isDone
      refine notSkipped file ?_ rfl
      rwa [midway.skipped_eq, List.append_nil]
    obtain ⟨bytes, held, either⟩ := midway.kept_or_mended file member notDone
    have isReached : { file with bytes } ∈ analyzer.reached workspace.directory tree
        (files.filterMap fun file => file.reread? tree) := by
      rw [analyzer.reached_eq_self (midway.refused?_eq_none repeatable opensFound),
        List.mem_filterMap]
      exact ⟨file, member, FoundFile.reread?_eq_some_iff.mpr ⟨held, rfl, rfl⟩⟩
    have mended := get?_format_write_of_reached midway.wellFormed_now
      (midway.discover_eq repeatable) isReached
    rw [get?_rewrite_mending repeatable.holds member, mended]
    rcases either with rfl | rfl
    · rfl
    · rw [repeatable.mendBytes_mendBytes]
  · have nowhere : ∀ file ∈ files, file.address ≠ address :=
      fun file member here => listed ⟨file, member, here⟩
    rw [get?_rewrite_mending_of_kept repeatable.on_text repeatable.holds
      fun file member _ _ _ => nowhere file member, ← midway.others_kept address nowhere]
    rcases midway.get?_format_write_cases repeatable address with
      same | ⟨file, member, -, here, -⟩
    · exact same
    · exact absurd here (nowhere file member)

end LastRun

end Midway

/-! ## Whole sequences -/

/-- Where runs and repairs in turn have led, if some files have been put right and others are
left. -/
structure Advances (analyzer : Analyzer) (workspace : Workspace) (done left : List FoundFile)
    (tree : FileTree) : Prop where
  undecodable_eq : analyzer.undecodable workspace = done ++ left
  opens_found : analyzer.OpensFound workspace → analyzer.OpensFound { workspace with tree }
  /-- If all files can be read, the next run names the first of those that are left. -/
  next_fails : analyzer.OpensFound { workspace with tree } → ∀ file others, left = file :: others →
    file ∈ analyzer.undecodable { workspace with tree } ∧
      (analyzer.format .write { workspace with tree }).2 = .error (.undecodable file.path)
  succeeds : analyzer.OpensFound { workspace with tree } → left = [] →
    ∃ report, (analyzer.format .write { workspace with tree }).2 = .ok report
  reference_succeeds : analyzer.OpensFound workspace →
    ∃ report, (analyzer.format .write (analyzer.withoutUndecodable workspace)).2 = .ok report
  /-- A last run that succeeds leaves all other files as one run does that never saw those files,
  and that succeeds, too. -/
  same_end : left = [] → ∀ report,
    (analyzer.format .write { workspace with tree }).2 = .ok report →
      (∃ other, (analyzer.format .write (analyzer.withoutUndecodable workspace)).2 = .ok other) ∧
      ∀ address, (∀ file ∈ analyzer.undecodable workspace, file.address ≠ address) →
        (analyzer.format .write { workspace with tree }).1.get? address =
          (analyzer.format .write (analyzer.withoutUndecodable workspace)).1.get? address

theorem Recovers.exists_midway (recovers : analyzer.Recovers workspace done tree)
    (repeatable : analyzer.Repeatable workspace root files) :
    ∃ left, analyzer.Midway workspace files done left tree := by
  induction recovers with
  | start => exact ⟨skipped files, repeatable.midway_start⟩
  | @repaired done tree mended file soFar isFound failed repairs ih =>
      obtain ⟨left, midway⟩ := ih
      have sorted := analyzer.pairwise_order_lt_undecodable midway.wellFormed_now
      obtain ⟨first, isFirst, samePath⟩ := midway.head?_of_fails repeatable failed
      obtain ⟨others, rfl⟩ := List.head?_eq_some_iff.mp isFirst
      rw [midway.undecodable_eq repeatable] at isFound sorted
      -- No other file has the path that the run names.
      obtain rfl : file = first := by
        rcases List.mem_cons.mp isFound with same | later
        · exact same
        · have before := List.rel_of_pairwise_cons sorted later
          have tied : file.path.order file.path = .eq := Std.ReflCmp.compare_self
          rw [samePath] at before
          cases tied.symm.trans before
      exact ⟨others, (midway.format_write repeatable).repaired repeatable repairs⟩

theorem Midway.advances (midway : analyzer.Midway workspace files done left tree)
    (repeatable : analyzer.Repeatable workspace root files) :
    analyzer.Advances workspace done left tree := by
  have reference := repeatable.midway_withoutUndecodable
  have undecodableEq := analyzer.undecodable_of_discover repeatable.discover_eq
  constructor
  case undecodable_eq => exact undecodableEq.trans midway.skipped_eq
  case opens_found => exact midway.opensFound repeatable
  case next_fails =>
    rintro opensFound file others rfl
    rw [midway.undecodable_eq repeatable]
    exact ⟨List.mem_cons_self, midway.fails_of_opensFound repeatable opensFound rfl⟩
  case succeeds =>
    rintro opensFound rfl
    exact midway.exists_report repeatable opensFound
  case reference_succeeds =>
    intro opensFirst
    exact reference.exists_report repeatable (reference.opensFound repeatable opensFirst)
  case same_end =>
    rintro rfl report succeeded
    obtain ⟨others, read, -⟩ := analyzer.exists_of_format_ok midway.wellFormed_now succeeded
    have opensFound := analyzer.opensFound_of_readable midway.wellFormed_now read
    have opensReference := midway.opensFound_withoutUndecodable repeatable opensFound
    refine ⟨reference.exists_report repeatable opensReference, fun address notUndecodable => ?_⟩
    rw [undecodableEq] at notUndecodable
    exact (midway.get?_format_write repeatable opensFound notUndecodable).trans
      (reference.get?_format_write repeatable opensReference notUndecodable).symm

/-- A run that writes and fails stops at the first file that is no text, with the texts before it
mended and all else as it was.  If such files are put right one after the other and the run is
repeated, it succeeds in the end, and all other files are then as after one run without the files
that are no texts. -/
theorem recovers_after_failure {root : Address} (wellFormed : workspace.tree.WellFormed)
    (leads : workspace.tree.resolve workspace.directory analyzer.root = .ok root)
    (isDirectory : workspace.tree.isDirectoryAt root = true)
    (onText : ∀ rule ∈ analyzer.rules, rule.DependsOnText) {path : Path}
    (failed : (analyzer.format .write workspace).2 = .error (.undecodable path)) :
    (∃ before file behind, file.path = path ∧ analyzer.StopsAt workspace before file behind) ∧
      ((∀ text, analyzer.formatText (analyzer.formatText text) = analyzer.formatText text) →
        analyzer.SparesIgnoreFiles workspace →
        ∀ done tree, analyzer.Recovers workspace done tree →
          ∃ left, analyzer.Advances workspace done left tree) := by
  obtain ⟨before, file, behind, named, stops⟩ := analyzer.exists_stopsAt wellFormed onText failed
  refine ⟨⟨before, file, behind, named, stops⟩, ?_⟩
  intro idempotent spares done tree recovers
  have repeatable : analyzer.Repeatable workspace root (before ++ file :: behind) := {
    wellFormed, leads, idempotent, spares
    is_directory := isDirectory
    discover_eq := stops.discover_eq
    on_text := onText
    fails_on_undecodable := stops.fails_on_undecodable }
  obtain ⟨left, midway⟩ := recovers.exists_midway repeatable
  exact ⟨left, midway.advances repeatable⟩

theorem recovers_after_failure_sample :
    sampleWorkspace.tree.WellFormed ∧
      sampleWorkspace.tree.resolve ["p"] strictAnalyzer.root = .ok ["p"] ∧
      sampleWorkspace.tree.isDirectoryAt ["p"] = true ∧
      (∀ rule ∈ strictAnalyzer.rules, rule.DependsOnText) ∧
      (strictAnalyzer.format .write sampleWorkspace).2 = .error (.undecodable ⟨["", "p", "b"]⟩) ∧
      (∀ text, strictAnalyzer.formatText (strictAnalyzer.formatText text) =
        strictAnalyzer.formatText text) ∧
      strictAnalyzer.SparesIgnoreFiles sampleWorkspace ∧
      strictAnalyzer.OpensFound sampleWorkspace ∧
      ∃ done tree, done ≠ [] ∧ strictAnalyzer.Recovers sampleWorkspace done tree ∧
        strictAnalyzer.Advances sampleWorkspace done [] tree := by
  have leads : sampleWorkspace.tree.resolve ["p"] strictAnalyzer.root = .ok ["p"] := by cbv
  have isDirectory : sampleWorkspace.tree.isDirectoryAt ["p"] = true := by cbv
  have onText : ∀ rule ∈ strictAnalyzer.rules, rule.DependsOnText := by
    intro rule member
    obtain rfl := List.mem_singleton.mp member
    exact TrailingSpaces.dependsOnText_rule {}
  let file : FoundFile := ⟨⟨["", "p", "b"]⟩, ["p", "b"], ⟨#[0xff]⟩⟩
  have failed : (strictAnalyzer.format .write sampleWorkspace).2 =
      .error (.undecodable file.path) := by cbv
  have undecodable : strictAnalyzer.undecodable sampleWorkspace = [file] := by cbv
  have offers : Catalogue.Offers {} strictAnalyzer.rules := ⟨_, rfl, Or.inl rfl⟩
  have idempotent : ∀ text, strictAnalyzer.formatText (strictAnalyzer.formatText text) =
      strictAnalyzer.formatText text := fix_fix offers .empty
  have spares : strictAnalyzer.SparesIgnoreFiles sampleWorkspace := by
    intro files others other member consulted
    obtain rfl := Except.ok.inj (discover_sample.symm.trans others)
    have isIgnoreFile := getLast?_of_consults_sample consulted
    simp only [List.mem_cons, List.not_mem_nil, or_false] at member
    rcases member with rfl | rfl <;> simp at isIgnoreFile
  have recovers : strictAnalyzer.Recovers sampleWorkspace [file] _ :=
    Recovers.start.repaired (undecodable ▸ List.mem_singleton_self file) failed .deleted
  obtain ⟨left, advances⟩ := (strictAnalyzer.recovers_after_failure wellFormed_sampleWorkspace leads
    isDirectory onText failed).2 idempotent spares _ _ recovers
  obtain rfl : left = [] := by simpa [undecodable] using advances.undecodable_eq
  exact ⟨wellFormed_sampleWorkspace, leads, isDirectory, onText, failed, idempotent, spares,
    opensFound_sample, [file], _, List.cons_ne_nil _ _, recovers, advances⟩

end Analyzer
end TidyLines
