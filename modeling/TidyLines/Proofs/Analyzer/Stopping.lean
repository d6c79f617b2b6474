import TidyLines.Proofs.Analyzer.Undecodable

/-!
# What a failing run leaves behind

When a file that is no text fails a run that writes, the files before it have been mended already.
The writes of the loop are made visible as a list (`Analyzer.writes`), so that it can be said that
each text is written at most once and as a whole (`Analyzer.StopsAt`).
-/

namespace TidyLines

/-- A tree after texts have been written to addresses, one after the other. -/
def FileTree.writeAll (tree : FileTree) (written : List (Address × Text)) : FileTree :=
  written.foldl (fun tree write => tree.put write.1 (.file (Text.encode write.2))) tree

theorem FileTree.writeAll_append (tree : FileTree) (first second : List (Address × Text)) :
    tree.writeAll (first ++ second) = (tree.writeAll first).writeAll second :=
  List.foldl_append

namespace Analyzer

variable (analyzer : Analyzer)

/-! ## The writes of a run -/

/-- What is written when files are mended in their order: the addresses and the texts.  As in the
loop of formatting, each file is read from the tree that the writes before it left behind. -/
def writes (directory : Address) : List FoundFile → FileTree → List (Address × Text)
  | [], _ => []
  | file :: others, tree =>
    match analyzer.readFile directory tree file.path with
    | .error _ => []
    | .ok none => writes directory others tree
    | .ok (some text) =>
      let mended := (analyzer.fix file.path text).1
      if mended = text then writes directory others tree
      else match tree.write directory file.path (Text.encode mended) with
        | .error _ => []
        | .ok written => (file.address, mended) :: writes directory others written

/-- The write that mending a text makes, if it makes one. -/
def writeOf (entry : FoundFile × Text) : Option (Address × Text) :=
  if (analyzer.fix entry.1.path entry.2).1 = entry.2 then none
  else some (entry.1.address, (analyzer.fix entry.1.path entry.2).1)

section Writes

variable {directory : Address} {tree : FileTree} {file : FoundFile} {others : List FoundFile}

/-- The turn of a file that does not fail the run writes it if mending changes its text. -/
theorem nextTree_write_eq_writeAll (wellFormed : tree.WellFormed)
    (opens : tree.Opens directory (file :: others)) :
    analyzer.nextTree .write file tree =
      tree.writeAll ((checked [file]).filterMap analyzer.writeOf) := by
  have inTree := opens.get?_eq file List.mem_cons_self
  cases decoded : Text.decode? file.bytes with
  | none =>
      rw [nextTree, analyzer.rewrite_changeAt_of_eq wellFormed inTree
        (analyzer.mendBytes_of_no_text file.path decoded), checked_cons_of_no_text decoded]
      rfl
  | some text =>
      have mended : analyzer.mendBytes file.path file.bytes =
          Text.encode (analyzer.fix file.path text).1 := by
        rw [mendBytes, decoded]
      rw [checked_cons_of_text decoded, List.filterMap_cons, writeOf]
      by_cases unchanged : (analyzer.fix file.path text).1 = text
      · rw [unchanged, Text.encode_of_decode? decoded] at mended
        rw [if_pos unchanged, nextTree, analyzer.rewrite_changeAt_of_eq wellFormed inTree mended]
        rfl
      · rw [if_neg unchanged, nextTree, ← FileTree.put_eq_rewrite wellFormed inTree, mended]
        rfl

theorem writes_cons (wellFormed : tree.WellFormed)
    (opens : tree.Opens directory (file :: others)) :
    analyzer.writes directory (file :: others) tree =
      match analyzer.refusal? directory tree file with
      | some _ => []
      | none => (checked [file]).filterMap analyzer.writeOf ++
          analyzer.writes directory others (analyzer.nextTree .write file tree) := by
  have next := analyzer.nextTree_write_eq_writeAll wellFormed opens
  rw [writes, analyzer.readFile_eq opens List.mem_cons_self]
  cases goesOn : analyzer.refusal? directory tree file with
  | some error => rfl
  | none =>
      rw [next]
      cases decoded : Text.decode? file.bytes with
      | none =>
          rw [checked_cons_of_no_text decoded]
          rfl
      | some text =>
          have leads := ((analyzer.refusal?_eq_none_iff opens List.mem_cons_self).mp goesOn).1
          rw [checked_cons_of_text decoded, List.filterMap_cons, writeOf]
          dsimp only
          by_cases unchanged : (analyzer.fix file.path text).1 = text
          · rw [if_pos unchanged, if_pos unchanged]
            rfl
          · rw [if_neg unchanged, if_neg unchanged, opens.write_eq List.mem_cons_self leads]
            rfl

/-- The loop of formatting makes these writes and no others. -/
theorem formatFiles_write_fst_eq_writeAll (base : Path) (report : FormatReport)
    {files : List FoundFile} (wellFormed : tree.WellFormed)
    (opens : tree.Opens directory files) :
    (analyzer.formatFiles .write directory base report files tree).1 =
      tree.writeAll (analyzer.writes directory files tree) := by
  induction files generalizing report tree with
  | nil => rfl
  | cons file others ih =>
      rw [formatFiles, analyzer.formatNext_eq .write base report wellFormed opens,
        analyzer.writes_cons wellFormed opens]
      cases analyzer.refusal? directory tree file with
      | some error => rfl
      | none =>
          obtain ⟨wellFormedNext, opensNext⟩ := analyzer.opens_nextTree .write wellFormed opens
          dsimp only
          rw [ih _ wellFormedNext opensNext, FileTree.writeAll_append,
            ← analyzer.nextTree_write_eq_writeAll wellFormed opens]

/-- What is written are the texts that mending changes, up to the file at which the run stops. -/
theorem writes_eq {files : List FoundFile} (wellFormed : tree.WellFormed)
    (opens : tree.Opens directory files) :
    analyzer.writes directory files tree =
      (checked (analyzer.reached directory tree files)).filterMap analyzer.writeOf := by
  induction files generalizing tree with
  | nil => rfl
  | cons file others ih =>
      rw [analyzer.writes_cons wellFormed opens, reached, List.takeWhile_cons]
      cases analyzer.refusal? directory tree file with
      | some error => rfl
      | none =>
          obtain ⟨wellFormedNext, opensNext⟩ := analyzer.opens_nextTree .write wellFormed opens
          dsimp only
          rw [ih wellFormedNext opensNext, analyzer.reached_nextTree .write opens,
            ← List.filterMap_append, ← checked_append]
          rfl

end Writes

theorem map_fst_filterMap_writeOf (entries : List (FoundFile × Text)) :
    (entries.filterMap analyzer.writeOf).map Prod.fst =
      ((entries.filter fun entry => (analyzer.fix entry.1.path entry.2).1 ≠ entry.2).map
        Prod.fst).map FoundFile.address := by
  induction entries with
  | nil => rfl
  | cons entry others ih =>
      by_cases unchanged : (analyzer.fix entry.1.path entry.2).1 = entry.2
      · simpa [writeOf, unchanged] using ih
      · simpa [writeOf, unchanged] using ih

/-- No file is written twice, for each has an address of its own. -/
theorem map_fst_writes_sublist {directory : Address} {files : List FoundFile} {tree : FileTree}
    (wellFormed : tree.WellFormed) (opens : tree.Opens directory files) :
    ((analyzer.writes directory files tree).map Prod.fst).Sublist
      ((analyzer.reached directory tree files).map FoundFile.address) := by
  rw [analyzer.writes_eq wellFormed opens, map_fst_filterMap_writeOf, map_fst_filter_checked]
  exact List.filter_sublist.map _

/-! ## Where a run stops -/

/-- A run that writes stops at a file, with some of the files found before it and some behind. -/
structure StopsAt (workspace : Workspace) (before : List FoundFile) (file : FoundFile)
    (behind : List FoundFile) : Prop where
  fails_on_undecodable : analyzer.failOnUndecodable = true
  discover_eq : analyzer.discover workspace = .ok (before ++ file :: behind)
  in_order : (before ++ file :: behind).Pairwise fun first second =>
    first.path.order second.path = .lt
  texts_before : ∀ other ∈ before, (Text.decode? other.bytes).isSome = true
  no_text : Text.decode? file.bytes = none
  mended_before : ∀ other ∈ before, ∀ text, Text.decode? other.bytes = some text →
    (analyzer.format .write workspace).1.get? other.address =
      some (.file (Text.encode (analyzer.formatText text)))
  others_kept : ∀ address, (∀ other ∈ before, other.address ≠ address) →
    (analyzer.format .write workspace).1.get? address = workspace.tree.get? address
  file_kept : (analyzer.format .write workspace).1.get? file.address = some (.file file.bytes)
  /-- The tree comes about by writing whole texts, each to an address of its own. -/
  tree_eq : (analyzer.format .write workspace).1 = workspace.tree.writeAll
    (analyzer.writes workspace.directory (before ++ file :: behind) workspace.tree)
  written_once : ((analyzer.writes workspace.directory (before ++ file :: behind)
    workspace.tree).map Prod.fst).Nodup

/-- A run that writes and fails stops at the first file that is no text, which it names. -/
theorem exists_stopsAt {workspace : Workspace} (wellFormed : workspace.tree.WellFormed)
    (onText : ∀ rule ∈ analyzer.rules, rule.DependsOnText) {path : Path}
    (failed : (analyzer.format .write workspace).2 = .error (.undecodable path)) :
    ∃ before file behind, file.path = path ∧ analyzer.StopsAt workspace before file behind := by
  have unreadable := (analyzer.format_eq_undecodable_iff wellFormed).mp failed
  obtain ⟨files, found, file, member, refuses, behind, split⟩ :=
    analyzer.exists_split_of_readable unreadable
  have opens := analyzer.opens_of_discover wellFormed found
  obtain ⟨-, fails, noText, samePath⟩ :=
    (analyzer.refusal?_eq_undecodable_iff opens member).mp refuses
  refine ⟨analyzer.reached workspace.directory workspace.tree files, file, behind, samePath, ?_⟩
  constructor
  case fails_on_undecodable => exact fails
  case discover_eq => rw [← split, found]
  case in_order =>
    rw [← split]
    exact analyzer.search.pairwise_order_lt_find wellFormed (analyzer.discover_eq_ok_iff.mp found)
  case texts_before =>
    intro other isReached
    exact analyzer.isSome_of_reached opens fails isReached
  case no_text => exact noText
  case mended_before =>
    intro other isReached text decoded
    rw [get?_format_write_of_reached wellFormed found isReached,
      mendBytes_of_text onText other.path decoded]
  case others_kept =>
    intro address elsewhere
    exact get?_format_write_of_forall_ne wellFormed found
      fun other isReached same => elsewhere other isReached same.symm
  case file_kept => exact get?_format_write_of_no_text wellFormed found member noText
  case tree_eq =>
    rw [format, found, ← split]
    exact analyzer.formatFiles_write_fst_eq_writeAll _ _ wellFormed opens
  case written_once =>
    rw [← split]
    exact opens.addresses_nodup.sublist ((analyzer.map_fst_writes_sublist wellFormed opens).trans
      ((analyzer.reached_sublist files).map _))

end Analyzer
end TidyLines
