import TidyLines.Proofs.Analyzer.Formatting
import TidyLines.Proofs.Discovery.Removal
import TidyLines.Proofs.Path.Spelled

/-!
# Files that are no texts

A file that is no text either counts for nothing or fails the run.  Where it counts for nothing, a
run reports what it would report if all such files had been deleted beforehand; where it fails the
run, the first one in the order of paths is named (`Analyzer.undecodable_passed_over_or_named`).
Both need that the files can be read under their paths, and the first that the search does not
consult them (`Analyzer.undecodable_may_count`).
-/

namespace TidyLines.Analyzer

variable (analyzer : Analyzer) (workspace : Workspace)

/-- The files that are no texts. -/
def skipped (files : List FoundFile) : List FoundFile :=
  files.filter fun file => (Text.decode? file.bytes).isNone

/-- The files found that are no texts; there are none if the root cannot be walked. -/
def undecodable : List FoundFile :=
  match analyzer.discover workspace with
  | .ok files => skipped files
  | .error _ => []

/-- A workspace in which the files found that are no texts have been deleted. -/
def withoutUndecodable : Workspace :=
  workspace.without ((analyzer.undecodable workspace).map FoundFile.address)

variable {workspace} {files : List FoundFile}

theorem mem_skipped {file : FoundFile} :
    file ∈ skipped files ↔ file ∈ files ∧ Text.decode? file.bytes = none := by
  rw [skipped, List.mem_filter, Option.isNone_iff_eq_none]

theorem undecodable_of_discover (found : analyzer.discover workspace = .ok files) :
    analyzer.undecodable workspace = skipped files := by
  rw [undecodable, found]

theorem exists_of_mem_undecodable {file : FoundFile}
    (isUndecodable : file ∈ analyzer.undecodable workspace) :
    ∃ files, analyzer.discover workspace = .ok files ∧ file ∈ files ∧
      Text.decode? file.bytes = none := by
  cases found : analyzer.discover workspace with
  | error error => simp [undecodable, found] at isUndecodable
  | ok files =>
      rw [analyzer.undecodable_of_discover found] at isUndecodable
      exact ⟨files, rfl, mem_skipped.mp isUndecodable⟩

theorem checked_filter_isSome (files : List FoundFile) :
    checked (files.filter fun file => (Text.decode? file.bytes).isSome) = checked files := by
  rw [checked, checked, List.filterMap_filter]
  apply List.filterMap_congr
  intro file _
  cases Text.decode? file.bytes <;> rfl

theorem address_mem_skipped_iff (apart : (files.map FoundFile.address).Nodup) {file : FoundFile}
    (member : file ∈ files) :
    file.address ∈ (skipped files).map FoundFile.address ↔ Text.decode? file.bytes = none := by
  rw [List.mem_map]
  constructor
  · rintro ⟨other, otherSkipped, sameAddress⟩
    obtain ⟨otherMember, noText⟩ := mem_skipped.mp otherSkipped
    obtain rfl := List.inj_on_of_nodup_map apart otherMember member sameAddress
    exact noText
  · intro noText
    exact ⟨file, mem_skipped.mpr ⟨member, noText⟩, rfl⟩

/-- Of files at different addresses, those that are not passed over are the texts. -/
theorem filter_address_notMem_skipped (apart : (files.map FoundFile.address).Nodup) :
    (files.filter fun file => file.address ∉ (skipped files).map FoundFile.address) =
      files.filter fun file => (Text.decode? file.bytes).isSome := by
  apply List.filter_congr
  intro file member
  rw [Bool.eq_iff_iff, decide_eq_true_iff, address_mem_skipped_iff apart member,
    Option.isSome_iff_ne_none]

/-! ## Passing over -/

section PassedOver

variable {analyzer} {root : Address} (wellFormed : workspace.tree.WellFormed)
  (leads : workspace.tree.resolve workspace.directory analyzer.root = .ok root)
  (isDirectory : workspace.tree.isDirectoryAt root = true)
  (notConsulted : ∀ file ∈ analyzer.undecodable workspace,
    ¬ analyzer.search.Consults workspace file.address)

include wellFormed notConsulted

theorem unread_undecodable :
    analyzer.search.Unread workspace
      ((analyzer.undecodable workspace).map FoundFile.address) where
  hasFilesAt := by
    intro address listed
    obtain ⟨file, isUndecodable, rfl⟩ := List.mem_map.mp listed
    obtain ⟨files, found, member, -⟩ := analyzer.exists_of_mem_undecodable isUndecodable
    exact ⟨file.bytes, (analyzer.holds_of_discover wellFormed found).get?_eq file member⟩
  not_consulted := by simpa using notConsulted

include leads isDirectory

/-- With the files deleted that are no texts, the texts are found. -/
theorem discover_withoutUndecodable :
    analyzer.discover (analyzer.withoutUndecodable workspace) =
      (analyzer.discover workspace).map
        (List.filter fun file => (Text.decode? file.bytes).isSome) := by
  have found := Search.find_without (unread_undecodable wellFormed notConsulted) wellFormed
    leads isDirectory
  rw [discover, withoutUndecodable, found]
  cases searched : analyzer.search.find workspace with
  | error reason => simp [discover, searched, Except.map, Except.mapError]
  | ok files =>
      have discovered := analyzer.discover_eq_ok_iff.mpr searched
      have apart := (analyzer.holds_of_discover wellFormed discovered).addresses_nodup
      rw [analyzer.undecodable_of_discover discovered, discover, searched]
      simp only [Except.map, Except.mapError, filter_address_notMem_skipped apart]

theorem baseDirectory_withoutUndecodable :
    analyzer.baseDirectory (analyzer.withoutUndecodable workspace) =
      analyzer.baseDirectory workspace := by
  have files := (unread_undecodable wellFormed notConsulted).hasFilesAt
  rw [baseDirectory, baseDirectory, withoutUndecodable,
    Search.isFile_without files leads isDirectory,
    Workspace.isFile_of_isDirectoryAt leads isDirectory]

/-- A text is refused with the other files deleted if and only if it was refused with them. -/
theorem refusal?_withoutUndecodable (found : analyzer.discover workspace = .ok files)
    {file : FoundFile} (member : file ∈ files) (isText : (Text.decode? file.bytes).isSome = true) :
    analyzer.refusal? workspace.directory (analyzer.withoutUndecodable workspace).tree file =
      analyzer.refusal? workspace.directory workspace.tree file := by
  have opens := analyzer.opens_of_discover wellFormed found
  have foundLater : analyzer.discover (analyzer.withoutUndecodable workspace) =
      .ok (files.filter fun file => (Text.decode? file.bytes).isSome) := by
    rw [discover_withoutUndecodable wellFormed leads isDirectory notConsulted, found]
    rfl
  have opensLater : (analyzer.withoutUndecodable workspace).tree.Opens workspace.directory
      (files.filter fun file => (Text.decode? file.bytes).isSome) :=
    analyzer.opens_of_discover (wellFormed.without _) foundLater
  have isWalked : file ∈ analyzer.search.walked workspace root := by
    rw [analyzer.search.eq_filesBelow_of_find leads isDirectory
      (analyzer.discover_eq_ok_iff.mp found)] at member
    exact analyzer.search.mem_walked_of_mem_filesBelow member
  have kept : file.address ∉ (analyzer.undecodable workspace).map FoundFile.address := by
    rw [analyzer.undecodable_of_discover found,
      address_mem_skipped_iff opens.addresses_nodup member]
    exact Option.isSome_iff_ne_none.mp isText
  have sameWay : (analyzer.withoutUndecodable workspace).tree.resolve workspace.directory
      file.path = workspace.tree.resolve workspace.directory file.path :=
    Search.resolve_path_without (unread_undecodable wellFormed notConsulted) wellFormed leads
      isDirectory isWalked kept
  rw [analyzer.refusal?_eq opensLater (List.mem_filter_of_mem member isText), sameWay,
    analyzer.refusal?_eq opens member]

/-- Without the files that are no texts the texts are left, and the run fails as before. -/
theorem readable_withoutUndecodable (passesOver : analyzer.failOnUndecodable = false)
    (readThem : ∀ file ∈ analyzer.undecodable workspace, workspace.CanRead file.path) :
    analyzer.readable (analyzer.withoutUndecodable workspace) =
      (analyzer.readable workspace).map
        (List.filter fun file => (Text.decode? file.bytes).isSome) := by
  rw [readable, readable, discover_withoutUndecodable wellFormed leads isDirectory notConsulted]
  cases found : analyzer.discover workspace with
  | error error => rfl
  | ok files =>
      have sameRefusals : analyzer.refused? workspace.directory
          (analyzer.withoutUndecodable workspace).tree
            (files.filter fun file => (Text.decode? file.bytes).isSome) =
          analyzer.refused? workspace.directory workspace.tree files := by
        rw [refused?, refused?, ← List.head?_filterMap, ← List.head?_filterMap,
          List.filterMap_filter]
        congr 1
        apply List.filterMap_congr
        intro file member
        split
        next isText =>
          exact refusal?_withoutUndecodable wellFormed leads isDirectory notConsulted found member
            isText
        next noText =>
          -- A file that is passed over does not fail the run, since it can be read.
          have opens := analyzer.opens_of_discover wellFormed found
          have isUndecodable : file ∈ analyzer.undecodable workspace := by
            rw [analyzer.undecodable_of_discover found]
            exact mem_skipped.mpr ⟨member, by simpa using noText⟩
          symm
          exact (analyzer.refusal?_eq_none_iff opens member).mpr
            ⟨(opens.canRead_iff member).mp (readThem file isUndecodable), by simp [passesOver]⟩
      simp only [Except.map, bind, Except.bind]
      have sameDirectory : (analyzer.withoutUndecodable workspace).directory =
          workspace.directory := rfl
      rw [sameDirectory, sameRefusals]
      cases analyzer.refused? workspace.directory workspace.tree files <;> rfl

/-- What is reported about the texts does not change when the other files are deleted. -/
theorem analyze_withoutUndecodable (passesOver : analyzer.failOnUndecodable = false)
    (readThem : ∀ file ∈ analyzer.undecodable workspace, workspace.CanRead file.path) :
    analyzer.analyze (analyzer.withoutUndecodable workspace) = analyzer.analyze workspace := by
  have sameBase := baseDirectory_withoutUndecodable wellFormed leads isDirectory notConsulted
  rw [analyzer.analyze_eq (wellFormed.without _), analyzer.analyze_eq wellFormed,
    readable_withoutUndecodable wellFormed leads isDirectory notConsulted passesOver readThem]
  cases analyzer.readable workspace with
  | error error => rfl
  | ok files => simp only [Except.map, allViolations, sameBase, checked_filter_isSome]

theorem format_withoutUndecodable (passesOver : analyzer.failOnUndecodable = false)
    (readThem : ∀ file ∈ analyzer.undecodable workspace, workspace.CanRead file.path)
    (mode : Mode) :
    (analyzer.format mode (analyzer.withoutUndecodable workspace)).2 =
      (analyzer.format mode workspace).2 := by
  have sameBase := baseDirectory_withoutUndecodable wellFormed leads isDirectory notConsulted
  rw [analyzer.format_snd_eq (wellFormed.without _), analyzer.format_snd_eq wellFormed,
    readable_withoutUndecodable wellFormed leads isDirectory notConsulted passesOver readThem]
  cases analyzer.readable workspace with
  | error error => rfl
  | ok files => simp only [Except.map, allChanges, sameBase, checked_filter_isSome]

end PassedOver

/-- Writing leaves files alone that are no texts. -/
theorem get?_format_write_of_undecodable (wellFormed : workspace.tree.WellFormed)
    {file : FoundFile} (isUndecodable : file ∈ analyzer.undecodable workspace) :
    (analyzer.format .write workspace).1.get? file.address = some (.file file.bytes) := by
  obtain ⟨files, found, member, noText⟩ := analyzer.exists_of_mem_undecodable isUndecodable
  exact get?_format_write_of_no_text wellFormed found member noText

/-! ## Failing -/

/-- A run that names a file stops there. -/
theorem exists_split_of_readable {path : Path}
    (failed : analyzer.readable workspace = .error (.undecodable path)) :
    ∃ files, analyzer.discover workspace = .ok files ∧
      ∃ file ∈ files,
        analyzer.refusal? workspace.directory workspace.tree file = some (.undecodable path) ∧
        ∃ behind, files =
          analyzer.reached workspace.directory workspace.tree files ++ file :: behind := by
  cases found : analyzer.discover workspace with
  | error error =>
      obtain ⟨reason, rfl⟩ := analyzer.exists_walk_of_discover found
      simp [readable, found, bind, Except.bind] at failed
  | ok files =>
      simp only [readable, found, bind, Except.bind] at failed
      split at failed
      next error stops =>
        obtain rfl := Except.error.inj failed
        exact ⟨files, rfl, analyzer.exists_split_of_refused? stops⟩
      next => cases failed

theorem isSome_of_reached (opens : workspace.tree.Opens workspace.directory files)
    (fails : analyzer.failOnUndecodable = true) {file : FoundFile}
    (isReached : file ∈ analyzer.reached workspace.directory workspace.tree files) :
    (Text.decode? file.bytes).isSome = true :=
  ((analyzer.refusal?_eq_none_iff opens (analyzer.reached_subset files isReached)).mp
    (analyzer.refusal?_of_reached isReached)).2 fails

/-- The file that a run names is the first one that is no text. -/
theorem head?_undecodable_of_readable (wellFormed : workspace.tree.WellFormed) {path : Path}
    (failed : analyzer.readable workspace = .error (.undecodable path)) :
    ∃ file, (analyzer.undecodable workspace).head? = some file ∧ file.path = path := by
  obtain ⟨files, found, file, member, refuses, behind, split⟩ :=
    analyzer.exists_split_of_readable failed
  have opens := analyzer.opens_of_discover wellFormed found
  obtain ⟨-, fails, noText, samePath⟩ :=
    (analyzer.refusal?_eq_undecodable_iff opens member).mp refuses
  -- All files before it are texts, since they do not fail the run.
  have texts : skipped (analyzer.reached workspace.directory workspace.tree files) = [] := by
    rw [List.eq_nil_iff_forall_not_mem]
    intro other isSkipped
    obtain ⟨isReached, otherNoText⟩ := mem_skipped.mp isSkipped
    have isText := analyzer.isSome_of_reached opens fails isReached
    simp [otherNoText] at isText
  refine ⟨file, ?_, samePath⟩
  rw [analyzer.undecodable_of_discover found, split, skipped, List.filter_append, ← skipped,
    texts, List.nil_append, List.filter_cons_of_pos (by simp [noText]), List.head?_cons]

theorem analyze_eq_undecodable_iff (wellFormed : workspace.tree.WellFormed) {path : Path} :
    analyzer.analyze workspace = .error (.undecodable path) ↔
      analyzer.readable workspace = .error (.undecodable path) := by
  rw [analyzer.analyze_eq wellFormed]
  cases analyzer.readable workspace <;> simp [Except.map]

theorem format_eq_undecodable_iff (wellFormed : workspace.tree.WellFormed) {mode : Mode}
    {path : Path} :
    (analyzer.format mode workspace).2 = .error (.undecodable path) ↔
      analyzer.readable workspace = .error (.undecodable path) := by
  rw [analyzer.format_snd_eq wellFormed]
  cases analyzer.readable workspace <;> simp [Except.map]

/-- If all files can be read, a file that is no text fails the run. -/
theorem exists_undecodable_of_opensFound (wellFormed : workspace.tree.WellFormed)
    (fails : analyzer.failOnUndecodable = true) (opensFound : analyzer.OpensFound workspace)
    {file : FoundFile} (isUndecodable : file ∈ analyzer.undecodable workspace) :
    ∃ path, analyzer.readable workspace = .error (.undecodable path) := by
  obtain ⟨files, found, member, noText⟩ := analyzer.exists_of_mem_undecodable isUndecodable
  have opens := analyzer.opens_of_discover wellFormed found
  cases stops : analyzer.refused? workspace.directory workspace.tree files with
  | none =>
      have notRefused := (analyzer.refused?_eq_none_iff).mp stops file member
      have isText := ((analyzer.refusal?_eq_none_iff opens member).mp notRefused).2 fails
      simp [noText] at isText
  | some error =>
      obtain ⟨first, firstMember, isReason, -⟩ := analyzer.exists_split_of_refused? stops
      have leads := (opens.canRead_iff firstMember).mp (opensFound files found first firstMember)
      rw [analyzer.refusal?_eq opens firstMember, leads] at isReason
      obtain ⟨-, isError⟩ := Option.ite_none_right_eq_some.mp isReason
      refine ⟨first.path, ?_⟩
      rw [analyzer.readable_of_refused found stops, Option.some.inj isError]

/-- The files that are no texts stand in the order of their paths, of which no two are tied. -/
theorem pairwise_order_lt_undecodable (wellFormed : workspace.tree.WellFormed) :
    (analyzer.undecodable workspace).Pairwise fun first second =>
      first.path.order second.path = .lt := by
  cases found : analyzer.discover workspace with
  | error error => simp [undecodable, found]
  | ok files =>
      rw [analyzer.undecodable_of_discover found]
      have sorted := analyzer.search.pairwise_order_lt_find wellFormed
        (analyzer.discover_eq_ok_iff.mp found)
      exact sorted.sublist List.filter_sublist

/-- The file that a run names is the first of those that are no texts. -/
theorem exists_first_undecodable (wellFormed : workspace.tree.WellFormed) {path : Path}
    (failed : analyzer.analyze workspace = .error (.undecodable path)) :
    ∃ file ∈ analyzer.undecodable workspace, file.path = path ∧
      ∀ other ∈ analyzer.undecodable workspace, other ≠ file →
        file.path.order other.path = .lt := by
  obtain ⟨file, isFirst, rfl⟩ := analyzer.head?_undecodable_of_readable wellFormed
    ((analyzer.analyze_eq_undecodable_iff wellFormed).mp failed)
  obtain ⟨others, split⟩ := List.head?_eq_some_iff.mp isFirst
  have sorted := analyzer.pairwise_order_lt_undecodable wellFormed
  rw [split] at sorted ⊢
  refine ⟨file, List.mem_cons_self, rfl, ?_⟩
  intro other member differs
  exact List.rel_of_pairwise_cons sorted (List.mem_of_ne_of_mem differs member)

/-- Files that are no texts either count for nothing, as if they had been deleted, and keep their
bytes, or they fail the run, which then names the first of them in the order of paths.  A file that
cannot be read comes before both. -/
theorem undecodable_passed_over_or_named {root : Address}
    (wellFormed : workspace.tree.WellFormed)
    (leads : workspace.tree.resolve workspace.directory analyzer.root = .ok root)
    (isDirectory : workspace.tree.isDirectoryAt root = true)
    (notConsulted : ∀ file ∈ analyzer.undecodable workspace,
      ¬ analyzer.search.Consults workspace file.address) :
    (analyzer.failOnUndecodable = false →
      ((∀ file ∈ analyzer.undecodable workspace, workspace.CanRead file.path) →
        analyzer.analyze workspace = analyzer.analyze (analyzer.withoutUndecodable workspace) ∧
        ∀ mode, (analyzer.format mode workspace).2 =
          (analyzer.format mode (analyzer.withoutUndecodable workspace)).2) ∧
      ∀ file ∈ analyzer.undecodable workspace,
        (analyzer.format .write workspace).1.get? file.address = some (.file file.bytes)) ∧
    (analyzer.failOnUndecodable = true →
      (analyzer.OpensFound workspace →
        ((∃ path, analyzer.analyze workspace = .error (.undecodable path)) ↔
          analyzer.undecodable workspace ≠ [])) ∧
      ∀ path, analyzer.analyze workspace = .error (.undecodable path) →
        ∃ file ∈ analyzer.undecodable workspace, file.path = path ∧
          ∀ other ∈ analyzer.undecodable workspace, other ≠ file →
            file.path.order other.path = .lt) := by
  constructor
  · intro passesOver
    refine ⟨fun readThem => ⟨?_, fun mode => ?_⟩, fun file isUndecodable => ?_⟩
    · exact (analyze_withoutUndecodable wellFormed leads isDirectory notConsulted passesOver
        readThem).symm
    · exact (format_withoutUndecodable wellFormed leads isDirectory notConsulted passesOver
        readThem mode).symm
    · exact analyzer.get?_format_write_of_undecodable wellFormed isUndecodable
  · intro fails
    refine ⟨fun opensFound => ⟨?_, ?_⟩, fun path => analyzer.exists_first_undecodable wellFormed⟩
    · rintro ⟨path, failed⟩
      obtain ⟨file, member, -⟩ := analyzer.exists_first_undecodable wellFormed failed
      exact List.ne_nil_of_mem member
    · intro someUndecodable
      obtain ⟨file, others, split⟩ := List.ne_nil_iff_exists_cons.mp someUndecodable
      have isUndecodable : file ∈ analyzer.undecodable workspace := by
        rw [split]
        exact List.mem_cons_self
      obtain ⟨path, failed⟩ :=
        analyzer.exists_undecodable_of_opensFound wellFormed fails opensFound isUndecodable
      exact ⟨path, (analyzer.analyze_eq_undecodable_iff wellFormed).mpr failed⟩

theorem discover_sample : sampleAnalyzer.discover sampleWorkspace = .ok [
    ⟨⟨["", "p", "a"]⟩, ["p", "a"], Text.encode [' ', '\n', 'x', ' ']⟩,
    ⟨⟨["", "p", "b"]⟩, ["p", "b"], ⟨#[0xff]⟩⟩] := by
  cbv

theorem canRead_sample : sampleWorkspace.CanRead ⟨["", "p", "b"]⟩ := ⟨⟨#[0xff]⟩, by cbv⟩

theorem opensFound_sample : strictAnalyzer.OpensFound sampleWorkspace := by
  intro files found file member
  obtain rfl := Except.ok.inj (discover_sample.symm.trans found)
  rcases List.mem_pair.mp member with rfl | rfl
  · exact ⟨Text.encode [' ', '\n', 'x', ' '], by cbv⟩
  · exact canRead_sample

theorem undecodable_sample :
    sampleWorkspace.tree.WellFormed ∧
      sampleWorkspace.tree.resolve ["p"] sampleAnalyzer.root = .ok ["p"] ∧
      sampleWorkspace.tree.isDirectoryAt ["p"] = true ∧
      (∀ file ∈ sampleAnalyzer.undecodable sampleWorkspace,
        ¬ sampleAnalyzer.search.Consults sampleWorkspace file.address ∧
          sampleWorkspace.CanRead file.path) ∧
      sampleAnalyzer.analyze sampleWorkspace =
        sampleAnalyzer.analyze (sampleAnalyzer.withoutUndecodable sampleWorkspace) ∧
      (sampleAnalyzer.format .write sampleWorkspace).1.get? ["p", "b"] =
        some (.file ⟨#[0xff]⟩) ∧
      strictAnalyzer.OpensFound sampleWorkspace ∧
      ∃ path, strictAnalyzer.analyze sampleWorkspace = .error (.undecodable path) := by
  have leads : sampleWorkspace.tree.resolve ["p"] sampleAnalyzer.root = .ok ["p"] := by cbv
  have isDirectory : sampleWorkspace.tree.isDirectoryAt ["p"] = true := by cbv
  have undecodableEq : sampleAnalyzer.undecodable sampleWorkspace =
      [⟨⟨["", "p", "b"]⟩, ["p", "b"], ⟨#[0xff]⟩⟩] := by cbv
  have notConsulted : ∀ file ∈ sampleAnalyzer.undecodable sampleWorkspace,
      ¬ sampleAnalyzer.search.Consults sampleWorkspace file.address := by
    intro file member consulted
    rw [undecodableEq] at member
    obtain rfl := List.mem_singleton.mp member
    simpa using getLast?_of_consults_sample consulted
  have readThem : ∀ file ∈ sampleAnalyzer.undecodable sampleWorkspace,
      sampleWorkspace.CanRead file.path := by
    intro file member
    rw [undecodableEq] at member
    obtain rfl := List.mem_singleton.mp member
    exact canRead_sample
  have lenient := sampleAnalyzer.undecodable_passed_over_or_named wellFormed_sampleWorkspace leads
    isDirectory notConsulted
  have strict := strictAnalyzer.undecodable_passed_over_or_named wellFormed_sampleWorkspace leads
    isDirectory notConsulted
  have isUndecodable : strictAnalyzer.undecodable sampleWorkspace ≠ [] := by
    rw [show strictAnalyzer.undecodable sampleWorkspace = _ from undecodableEq]
    exact List.cons_ne_nil _ _
  obtain ⟨sameReport, sameBytes⟩ := lenient.1 rfl
  refine ⟨wellFormed_sampleWorkspace, leads, isDirectory,
    fun file member => ⟨notConsulted file member, readThem file member⟩, (sameReport readThem).1,
    ?_, opensFound_sample, ((strict.2 rfl).1 opensFound_sample).mpr isUndecodable⟩
  exact sameBytes _ (undecodableEq ▸ List.mem_cons_self)

/-! ## Files that matter though they are no texts -/

/-- In a tree without links, the name of an ignore file is that of its place. -/
theorem getLast?_of_resolve_kind {tree : FileTree}
    (noLink : ∀ place target, tree.get? place ≠ some (.link target)) {place address : Address}
    {kind : Ignore.Kind} (leads : tree.resolve place kind.path = .ok address) :
    address.getLast? ∈ [some ".ignore", some ".gitignore", some "exclude"] := by
  have spelled : kind.path.segments.getLast? ∈ [some ".ignore", some ".gitignore", some "exclude"] ∧
      kind.path.segments ≠ [] ∧ kind.path.isAbsolute = false ∧
      ∀ name ∈ kind.path.segments, Path.IsName name := by
    cases kind <;> decide +kernel
  obtain ⟨isListed, nonempty, relative, areNames⟩ := spelled
  have way := (FileTree.resolve_eq_ok_iff.mp leads).2
  rw [FileTree.startOf, relative, if_neg Bool.false_ne_true] at way
  rw [FileTree.eq_append_of_walkTo noLink areNames way, List.getLast?_append_of_ne_nil _ nonempty]
  exact isListed

/-- No file found that is no text is an ignore file. -/
def NoIgnoreFile (workspace : Workspace) : Prop :=
  ∀ file ∈ analyzer.undecodable workspace, ∀ place kind,
    workspace.tree.resolve place (Ignore.Kind.path kind) ≠ .ok file.address

theorem noIgnoreFile_of_forall
    (noLink : ∀ place target, workspace.tree.get? place ≠ some (.link target))
    (otherName : ∀ file ∈ analyzer.undecodable workspace,
      file.address.getLast? ∉ [some ".ignore", some ".gitignore", some "exclude"]) :
    analyzer.NoIgnoreFile workspace :=
  fun file member _ _ leads => otherName file member (getLast?_of_resolve_kind noLink leads)

/-- If only ignore files for all users are minded, a search consults nothing else. -/
theorem NoIgnoreFile.not_consults {analyzer : Analyzer}
    (noIgnoreFile : analyzer.NoIgnoreFile workspace)
    (plain : analyzer.search.respectIgnoreFiles = false) {file : FoundFile}
    (isUndecodable : file ∈ analyzer.undecodable workspace) :
    ¬ analyzer.search.Consults workspace file.address := by
  intro consulted
  cases consulted with
  | above count _ _ _ found => exact noIgnoreFile file isUndecodable _ _ found
  | below _ _ _ _ found => exact noIgnoreFile file isUndecodable _ _ found
  | user _ respected => cases plain.symm.trans respected

/-- If all files found can be read, and none fails the run, the texts are checked. -/
theorem filesChecked_of_canRead (wellFormed : workspace.tree.WellFormed)
    (passesOver : analyzer.failOnUndecodable = false)
    (found : analyzer.discover workspace = .ok files)
    (canRead : ∀ file ∈ files, workspace.CanRead file.path) :
    (analyzer.analyze workspace).map LintReport.filesChecked = .ok (checked files).length := by
  have opens := analyzer.opens_of_discover wellFormed found
  have goesOn : analyzer.refused? workspace.directory workspace.tree files = none := by
    refine (analyzer.refused?_eq_none_iff).mpr fun file member => ?_
    exact (analyzer.refusal?_eq_none_iff opens member).mpr
      ⟨(opens.canRead_iff member).mp (canRead file member), by simp [passesOver]⟩
  rw [analyzer.analyze_eq wellFormed, analyzer.readable_eq_ok_iff.mpr ⟨found, goesOn⟩]
  rfl

/-- The bytes of a configuration that names an ignore file. -/
def configuration : ByteArray := ⟨(Text.encode "excludesfile=a\n".toList).data.push 0xff⟩

/-- A directory with a configuration of the user that is no text.  It names an ignore file in which
that file itself is ignored. -/
def configuredWorkspace : Workspace where
  tree := ⟨[
    (["p"], .directory),
    (["p", "git"], .directory),
    (["p", "git", "config"], .file configuration),
    (["p", "a"], .file (Text.encode ['a', ' ', '\n']))]⟩
  directory := ["p"]
  environment := [("XDG_CONFIG_HOME", "/p")]

/-- An analyzer of the directory that minds ignore files. -/
def configuredAnalyzer : Analyzer where
  search := { root := ⟨["", "p"]⟩, excluded := [], included := [], respectIgnoreFiles := true }
  rules := []
  config := {}
  failOnUndecodable := false

theorem userRules_configured :
    Ignore.userRules configuredWorkspace.tree configuredWorkspace.directory
        configuredWorkspace.environment configuredWorkspace.home? =
      (Ignore.Rules.ofBytes (Text.encode ['a', ' ', '\n'])).reversed := by
  have files : Ignore.configFiles configuredWorkspace.environment configuredWorkspace.home? =
      [⟨["", "p", "git", "config"]⟩] := by decide +kernel
  have isRead : configuredWorkspace.tree.read configuredWorkspace.directory
      ⟨["", "p", "git", "config"]⟩ = .ok configuration := by cbv
  have value : Ignore.setting? true configuration.data.toList = some [97] := by decide +kernel
  have text : Text.decode? ⟨#[97]⟩ = some ['a'] := by cbv
  have home : configuredWorkspace.home? = none := by cbv
  have named : Ignore.namedFile? configuredWorkspace.tree configuredWorkspace.directory
      configuredWorkspace.home? ⟨["", "p", "git", "config"]⟩ = some ⟨["a"]⟩ := by
    rw [Ignore.namedFile?, isRead, home]
    simp only [Except.toOption, bind, Option.bind, value, text]
    decide +kernel
  have ignoreFile : configuredWorkspace.tree.read configuredWorkspace.directory ⟨["a"]⟩ =
      .ok (Text.encode ['a', ' ', '\n']) := by cbv
  simp [Ignore.userRules, Ignore.userFile?, files, named, ignoreFile]

theorem discover_configured :
    configuredAnalyzer.discover configuredWorkspace =
      .ok [⟨⟨["", "p", "git", "config"]⟩, ["p", "git", "config"], configuration⟩] := by
  have leads : configuredWorkspace.tree.resolve configuredWorkspace.directory
      configuredAnalyzer.search.root = .ok ["p"] := by cbv
  have walks : configuredWorkspace.isFile configuredAnalyzer.search.root = false := by cbv
  have noFiles : Ignore.loadAll configuredWorkspace.tree true = [] := by cbv
  have context : configuredAnalyzer.search.ignoreContext configuredWorkspace = {
      files := []
      kinds := Ignore.kinds true
      userRules := (Ignore.Rules.ofBytes (Text.encode ['a', ' ', '\n'])).reversed
      userDirectory := configuredWorkspace.directoryPath.text.toList } := by
    simp only [Search.ignoreContext, configuredAnalyzer, if_true, noFiles, userRules_configured]
  have noComplaints : Ignore.complaintsAbove configuredWorkspace.tree
      configuredAnalyzer.search.respectIgnoreFiles ["p"] = [] := by cbv
  have walked : configuredAnalyzer.search.walked configuredWorkspace ["p"] =
      [⟨⟨["", "p", "git", "config"]⟩, ["p", "git", "config"], configuration⟩] := by
    rw [Search.walked, context]
    cbv
  rw [discover, configuredAnalyzer.search.find_of_walks leads walks, noComplaints,
    Search.filesBelow, walked]
  cbv

/-- A path that goes on from a directory behind a number of dots. -/
def dottedPath (count : Nat) (names : List String) : Path :=
  ⟨"" :: "p" :: (List.replicate count "." ++ names)⟩

theorem join_dottedPath (count : Nat) (name : String) :
    (dottedPath count []).join ⟨[name]⟩ = dottedPath count [name] := by
  have relative : (Path.mk [name]).isAbsolute = false := by simp [Path.isAbsolute]
  have stays : (dottedPath count []).segments.getLast? ≠ some "" := by
    rw [dottedPath, List.append_nil]
    cases count with
    | zero => decide
    | succ count =>
        rw [List.replicate_succ', ← List.cons_append, ← List.cons_append, List.getLast?_concat]
        decide
  rw [Path.join, relative, if_neg Bool.false_ne_true, if_neg stays]
  simp [dottedPath]

theorem utf8ByteSize_dottedPath (count : Nat) (names : List String) :
    (dottedPath count names).text.utf8ByteSize =
      2 + 2 * count + (names.map fun name => 1 + name.utf8ByteSize).sum := by
  have letter : "p".utf8ByteSize = 1 := rfl
  have dot : ".".utf8ByteSize = 1 := rfl
  rw [dottedPath, Path.utf8ByteSize_text_cons, List.map_cons, List.sum_cons, List.map_append,
    List.sum_append, List.map_replicate, List.sum_replicate_nat, letter, dot,
    String.utf8ByteSize_empty]
  omega

theorem checkSpelling_dottedPath (count : Nat) {names : List String}
    (noNul : ∀ name ∈ names, '\x00' ∉ name.toList) :
    FileTree.checkSpelling (dottedPath count names) =
      if FileTree.pathBound ≤ 2 + 2 * count + (names.map fun name => 1 + name.utf8ByteSize).sum then
        .error .nameTooLong
      else .ok () := by
  have notEmpty : dottedPath count names ≠ .empty := by simp [dottedPath, Path.empty]
  have noNulInside : '\x00' ∉ (dottedPath count names).text.toList := by
    refine Path.notMem_toList_text (by decide) ?_
    intro segment member
    simp only [dottedPath, List.mem_cons, List.mem_append, List.mem_replicate] at member
    rcases member with rfl | rfl | ⟨-, rfl⟩ | isName
    · decide
    · decide
    · decide
    · exact noNul segment isName
  rw [← utf8ByteSize_dottedPath, FileTree.checkSpelling, if_neg notEmpty,
    String.contains_char_eq, if_neg (by simpa using noNulInside)]

/-- A directory with one file, which is no text. -/
def dottedWorkspace : Workspace where
  tree := ⟨[(["p"], .directory), (["p", "abc"], .file ⟨#[0xff]⟩)]⟩
  directory := []

/-- An analyzer of the directory.  Its root is spelled with so many dots that the path of the file
is too long. -/
def dottedAnalyzer (failOnUndecodable : Bool) : Analyzer where
  search := {
    root := dottedPath 2045 []
    excluded := []
    included := []
    respectIgnoreFiles := false }
  rules := []
  config := {}
  failOnUndecodable

theorem leads_dotted : dottedWorkspace.tree.resolve [] (dottedPath 2045 []) = .ok ["p"] := by
  have dots : ∀ count links, dottedWorkspace.tree.walkTo false links ["p"]
      (List.replicate count ".") = .ok ["p"] := by
    intro count links
    induction count with
    | zero => simp [FileTree.walkTo]
    | succ count ih =>
        rw [List.replicate_succ, FileTree.walkTo, if_pos (by cbv), if_pos (by decide), ih]
  have front : dottedWorkspace.tree.walkTo false FileTree.linkBudget [] ["", "p"] = .ok ["p"] := by
    cbv
  have accepted : FileTree.checkSpelling (dottedPath 2045 []) = .ok () := by
    rw [checkSpelling_dottedPath 2045 (by simp)]
    exact if_neg (by decide)
  refine FileTree.resolve_eq_ok_iff.mpr ⟨accepted, ?_⟩
  have absolute : (dottedPath 2045 []).isAbsolute = true := rfl
  rw [FileTree.startOf, absolute, if_pos rfl, dottedPath, List.append_nil]
  exact FileTree.walkTo_append front (dots 2045)

theorem discover_dotted (failOnUndecodable : Bool) :
    (dottedAnalyzer failOnUndecodable).discover dottedWorkspace =
      .ok [⟨dottedPath 2045 ["abc"], ["p", "abc"], ⟨#[0xff]⟩⟩] := by
  have walks : dottedWorkspace.isFile (dottedPath 2045 []) = false :=
    Workspace.isFile_of_isDirectoryAt leads_dotted (by cbv)
  have noComplaints : Ignore.complaintsAbove dottedWorkspace.tree false ["p"] = [] := by cbv
  have noFiles : Ignore.loadAll dottedWorkspace.tree false = [] := by cbv
  have below : dottedWorkspace.tree.filesBelow ["p"] = [(["abc"], ⟨#[0xff]⟩)] := by cbv
  have walked : (dottedAnalyzer failOnUndecodable).search.walked dottedWorkspace ["p"] =
      [⟨dottedPath 2045 ["abc"], ["p", "abc"], ⟨#[0xff]⟩⟩] := by
    rw [Search.walked, below]
    simp [Search.admits, Search.ignoreContext, Search.pathOf, dottedAnalyzer, noFiles,
      Ignore.Context.admits_of_no_rules, Ignore.isHidden, join_dottedPath]
  rw [discover, Search.find_of_walks _ leads_dotted walks, Search.filesBelow, walked]
  simp only [dottedAnalyzer, noComplaints]
  simp [Search.excludes, Search.includes, Except.mapError]

/-- The one file cannot be read. -/
theorem analyze_dotted (failOnUndecodable : Bool) :
    (dottedAnalyzer failOnUndecodable).analyze dottedWorkspace =
      .error (.io .nameTooLong) := by
  have tooLong : dottedWorkspace.tree.resolve dottedWorkspace.directory
      (dottedPath 2045 ["abc"]) = .error .nameTooLong := by
    have refused : FileTree.checkSpelling (dottedPath 2045 ["abc"]) = .error .nameTooLong := by
      rw [checkSpelling_dottedPath 2045 (by decide)]
      exact if_pos (by decide)
    rw [FileTree.resolve, refused]
    rfl
  rw [analyze, discover_dotted]
  simp [bind, Except.bind, lintFiles, readFile, FileTree.read, tooLong, Except.mapError]

/-- Whether files that are no texts count for nothing, and fail a run only as such, depends on more
than on no ignore file being one of them: a search consults other files, and a file that is found
may have too long a path to be read. -/
theorem undecodable_may_count :
    (configuredWorkspace.tree.WellFormed ∧
      configuredWorkspace.tree.resolve ["p"] configuredAnalyzer.root = .ok ["p"] ∧
      configuredWorkspace.tree.isDirectoryAt ["p"] = true ∧
      configuredAnalyzer.NoIgnoreFile configuredWorkspace ∧
      configuredAnalyzer.analyze configuredWorkspace ≠
        configuredAnalyzer.analyze (configuredAnalyzer.withoutUndecodable configuredWorkspace)) ∧
    (dottedWorkspace.tree.WellFormed ∧
      dottedWorkspace.tree.resolve [] (dottedAnalyzer false).root = .ok ["p"] ∧
      dottedWorkspace.tree.isDirectoryAt ["p"] = true ∧
      (dottedAnalyzer false).NoIgnoreFile dottedWorkspace ∧
      (dottedAnalyzer false).analyze dottedWorkspace ≠
        (dottedAnalyzer false).analyze
          ((dottedAnalyzer false).withoutUndecodable dottedWorkspace) ∧
      (dottedAnalyzer true).undecodable dottedWorkspace ≠ [] ∧
      ∀ path, (dottedAnalyzer true).analyze dottedWorkspace ≠ .error (.undecodable path)) := by
  constructor
  · have isUndecodable : configuredAnalyzer.undecodable configuredWorkspace =
        [⟨⟨["", "p", "git", "config"]⟩, ["p", "git", "config"], configuration⟩] := by
      rw [undecodable_of_discover _ discover_configured]
      cbv
    have canRead : configuredWorkspace.CanRead ⟨["", "p", "git", "config"]⟩ :=
      ⟨configuration, by cbv⟩
    refine ⟨by decide +kernel, by cbv, by cbv, ?_, ?_⟩
    · apply noIgnoreFile_of_forall
      · exact FileTree.ne_link_of_entries (by decide)
      · simp [isUndecodable]
    · intro same
      have withIt := configuredAnalyzer.filesChecked_of_canRead (by decide +kernel) rfl
        discover_configured (by simpa using canRead)
      rw [same, withoutUndecodable, isUndecodable] at withIt
      have found : configuredAnalyzer.discover (configuredWorkspace.without
          [["p", "git", "config"]]) = .ok
            [⟨⟨["", "p", "a"]⟩, ["p", "a"], Text.encode ['a', ' ', '\n']⟩] := by cbv
      have canReadLater : (configuredWorkspace.without [["p", "git", "config"]]).CanRead
          ⟨["", "p", "a"]⟩ := ⟨Text.encode ['a', ' ', '\n'], by cbv⟩
      have withoutIt := configuredAnalyzer.filesChecked_of_canRead (by decide +kernel) rfl found
        (by simpa using canReadLater)
      have counts := Except.ok.inj (withIt.symm.trans withoutIt)
      revert counts
      decide +kernel
  · have wellFormed : dottedWorkspace.tree.WellFormed := by decide +kernel
    have isDirectory : dottedWorkspace.tree.isDirectoryAt ["p"] = true := by cbv
    have isUndecodable : ∀ failOnUndecodable,
        (dottedAnalyzer failOnUndecodable).undecodable dottedWorkspace =
          [⟨dottedPath 2045 ["abc"], ["p", "abc"], ⟨#[0xff]⟩⟩] := by
      intro failOnUndecodable
      rw [undecodable_of_discover _ (discover_dotted failOnUndecodable)]
      exact List.filter_cons_of_pos (by decide +kernel)
    have noIgnoreFile : (dottedAnalyzer false).NoIgnoreFile dottedWorkspace := by
      apply noIgnoreFile_of_forall
      · exact FileTree.ne_link_of_entries (by decide)
      · simp [isUndecodable]
    have leads : dottedWorkspace.tree.resolve dottedWorkspace.directory
        (dottedAnalyzer false).root = .ok ["p"] := leads_dotted
    have found := discover_withoutUndecodable wellFormed leads isDirectory
      fun file member => noIgnoreFile.not_consults rfl member
    refine ⟨wellFormed, leads_dotted, isDirectory, noIgnoreFile, ?_, ?_, ?_⟩
    · rw [discover_dotted, Except.map, List.filter_cons_of_neg (by decide +kernel),
        List.filter_nil] at found
      rw [analyze_dotted, analyze, found]
      simp [bind, Except.bind, lintFiles, pure, Except.pure]
    · rw [isUndecodable]
      exact List.cons_ne_nil _ _
    · intro path
      rw [analyze_dotted]
      simp

end TidyLines.Analyzer
