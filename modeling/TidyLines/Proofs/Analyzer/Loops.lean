import Mathlib.Data.List.TakeWhile
import TidyLines.Proofs.Analyzer.Building
import TidyLines.Proofs.Discovery.Opening

/-!
# What linting and formatting do to a list of files

Both loops pass over the same files and stop at the same one.  This file says in closed form what
they report (`Analyzer.lintFiles_eq`) and what formatting makes of the tree
(`Analyzer.formatFiles_eq`).  Formatting reads each file from a tree in which others have been
rewritten already; the invariant of its loop is that the tree still opens all files that are to
come.
-/

namespace TidyLines

namespace Analyzer

variable (analyzer : Analyzer) (directory : Address) (tree : FileTree)

/-- Why a file fails a run, if it does: it cannot be read, or it is no text and such files fail the
run. -/
def refusal? (file : FoundFile) : Option AnalysisError :=
  match analyzer.readFile directory tree file.path with
  | .error error => some error
  | .ok _ => none

/-- Why a run stops, if it does: the first file that fails it decides. -/
def refused? (files : List FoundFile) : Option AnalysisError :=
  files.findSome? (analyzer.refusal? directory tree)

/-- The files before the one at which a run stops. -/
def reached (files : List FoundFile) : List FoundFile :=
  files.takeWhile fun file => (analyzer.refusal? directory tree file).isNone

/-- The files that are read as texts, with these texts. -/
def readTexts (files : List FoundFile) : List (FoundFile × Text) :=
  files.filterMap fun file =>
    match analyzer.readFile directory tree file.path with
    | .ok (some text) => some (file, text)
    | _ => none

/-- The files that are texts, with these texts. -/
def checked (files : List FoundFile) : List (FoundFile × Text) :=
  files.filterMap fun file => (Text.decode? file.bytes).map (file, ·)

theorem checked_cons_of_text {file : FoundFile} {text : Text}
    (decoded : Text.decode? file.bytes = some text) (others : List FoundFile) :
    checked (file :: others) = (file, text) :: checked others := by
  simp [checked, decoded]

theorem checked_cons_of_no_text {file : FoundFile} (noText : Text.decode? file.bytes = none)
    (others : List FoundFile) : checked (file :: others) = checked others := by
  simp [checked, noText]

theorem checked_append (first second : List FoundFile) :
    checked (first ++ second) = checked first ++ checked second :=
  List.filterMap_append

theorem mem_checked {files : List FoundFile} {entry : FoundFile × Text} :
    entry ∈ checked files ↔ entry.1 ∈ files ∧ Text.decode? entry.1.bytes = some entry.2 := by
  obtain ⟨file, text⟩ := entry
  simp only [checked, List.mem_filterMap, Option.map_eq_some_iff, Prod.mk.injEq]
  constructor
  · rintro ⟨found, member, read, decoded, rfl, rfl⟩
    exact ⟨member, decoded⟩
  · rintro ⟨member, decoded⟩
    exact ⟨file, member, text, decoded, rfl, rfl⟩

theorem length_checked (files : List FoundFile) :
    (checked files).length = files.countP fun file => (Text.decode? file.bytes).isSome := by
  rw [checked, List.length_filterMap_eq_countP]
  simp only [Option.isSome_map]

theorem map_fst_filter_checked (chosen : FoundFile × Text → Bool) (files : List FoundFile) :
    ((checked files).filter chosen).map Prod.fst =
      files.filter fun file => (Text.decode? file.bytes).any fun text => chosen (file, text) := by
  induction files with
  | nil => rfl
  | cons file others ih =>
      cases decoded : Text.decode? file.bytes with
      | none => simp [checked_cons_of_no_text decoded, decoded, ih]
      | some text =>
          cases isChosen : chosen (file, text) <;>
            simp [checked_cons_of_text decoded, decoded, isChosen, ih]

theorem map_fst_checked (files : List FoundFile) :
    (checked files).map Prod.fst =
      files.filter fun file => (Text.decode? file.bytes).isSome := by
  simpa using map_fst_filter_checked (fun _ => true) files

/-! ## Files that fail a run -/

section Refusal

variable {directory tree} {files : List FoundFile} {file : FoundFile}

theorem refusal?_eq (opens : tree.Opens directory files) (member : file ∈ files) :
    analyzer.refusal? directory tree file =
      match tree.resolve directory file.path with
      | .error fault => some (.io fault)
      | .ok _ =>
        if analyzer.failOnUndecodable && (Text.decode? file.bytes).isNone then
          some (.undecodable file.path)
        else none := by
  rw [refusal?, readFile, opens.read_eq member]
  cases tree.resolve directory file.path with
  | error fault => rfl
  | ok address =>
      simp only [Except.map, Except.mapError, bind, Except.bind, decode]
      cases Text.decode? file.bytes <;> cases analyzer.failOnUndecodable <;> rfl

/-- A file that does not fail the run is read as what it holds. -/
theorem readFile_eq (opens : tree.Opens directory files) (member : file ∈ files) :
    analyzer.readFile directory tree file.path =
      match analyzer.refusal? directory tree file with
      | some error => .error error
      | none => .ok (Text.decode? file.bytes) := by
  rw [refusal?, readFile, opens.read_eq member]
  cases tree.resolve directory file.path with
  | error fault => rfl
  | ok address =>
      simp only [Except.map, Except.mapError, bind, Except.bind, decode]
      cases decoded : Text.decode? file.bytes <;> cases analyzer.failOnUndecodable <;> rfl

theorem refusal?_eq_none_iff (opens : tree.Opens directory files) (member : file ∈ files) :
    analyzer.refusal? directory tree file = none ↔
      tree.resolve directory file.path = .ok file.address ∧
        (analyzer.failOnUndecodable = true → (Text.decode? file.bytes).isSome = true) := by
  rw [analyzer.refusal?_eq opens member]
  cases leads : tree.resolve directory file.path with
  | error fault => simp
  | ok address =>
      rw [opens.leads_only file member address leads]
      cases analyzer.failOnUndecodable <;> cases Text.decode? file.bytes <;> simp

theorem refusal?_eq_undecodable_iff (opens : tree.Opens directory files) (member : file ∈ files)
    {path : Path} :
    analyzer.refusal? directory tree file = some (.undecodable path) ↔
      tree.resolve directory file.path = .ok file.address ∧ analyzer.failOnUndecodable = true ∧
        Text.decode? file.bytes = none ∧ file.path = path := by
  rw [analyzer.refusal?_eq opens member]
  cases leads : tree.resolve directory file.path with
  | error fault => simp
  | ok address =>
      rw [opens.leads_only file member address leads]
      cases analyzer.failOnUndecodable <;> cases Text.decode? file.bytes <;> simp

theorem refused?_eq_none_iff {files : List FoundFile} :
    analyzer.refused? directory tree files = none ↔
      ∀ file ∈ files, analyzer.refusal? directory tree file = none :=
  List.findSome?_eq_none_iff

theorem reached_eq_self {files : List FoundFile}
    (goesOn : analyzer.refused? directory tree files = none) :
    analyzer.reached directory tree files = files := by
  rw [refused?_eq_none_iff] at goesOn
  rw [reached, List.takeWhile_eq_self_iff]
  intro file member
  rw [goesOn file member, Option.isNone_none]

theorem reached_sublist (files : List FoundFile) :
    (analyzer.reached directory tree files).Sublist files :=
  List.takeWhile_sublist _

theorem reached_subset (files : List FoundFile) :
    analyzer.reached directory tree files ⊆ files :=
  (analyzer.reached_sublist files).subset

theorem refusal?_of_reached {files : List FoundFile} {file : FoundFile}
    (isReached : file ∈ analyzer.reached directory tree files) :
    analyzer.refusal? directory tree file = none := by
  simpa using List.mem_takeWhile_imp isReached

/-- A run stops at the file behind those that are reached. -/
theorem exists_split_of_refused? {files : List FoundFile} {error : AnalysisError}
    (stops : analyzer.refused? directory tree files = some error) :
    ∃ file ∈ files, analyzer.refusal? directory tree file = some error ∧
      ∃ behind, files = analyzer.reached directory tree files ++ file :: behind := by
  obtain ⟨before, file, behind, rfl, refuses, goesOn⟩ := List.findSome?_eq_some_iff.mp stops
  have reachedEq : analyzer.reached directory tree (before ++ file :: behind) = before := by
    rw [reached, List.takeWhile_append_of_pos (by simpa using goesOn),
      List.takeWhile_cons_of_neg (by simp [refuses]), List.append_nil]
  exact ⟨file, List.mem_append_cons_self, refuses, behind, by rw [reachedEq]⟩

/-- Writing to one file does not decide about the others. -/
theorem refusal?_rewrite {others : List FoundFile} {first : FoundFile}
    (opens : tree.Opens directory (first :: others)) (change : ByteArray → ByteArray)
    {file : FoundFile} (member : file ∈ others) :
    analyzer.refusal? directory (tree.rewrite (FileTree.changeAt first.address change)) file =
      analyzer.refusal? directory tree file := by
  rw [analyzer.refusal?_eq (opens.tail_rewrite change) member, FileTree.resolve_rewrite,
    analyzer.refusal?_eq opens (List.mem_cons_of_mem first member)]

end Refusal

/-! ## Linting -/

/-- Linting reports the violations of all texts that are read, file by file, or why it stops. -/
theorem lintFiles_eq_readTexts (workspace : Workspace) (base : Path) (files : List FoundFile) :
    analyzer.lintFiles workspace base files =
      match analyzer.refused? workspace.directory workspace.tree files with
      | some error => .error error
      | none => .ok {
          violations := (analyzer.readTexts workspace.directory workspace.tree files).flatMap
            fun entry => analyzer.lint (sourceOf base entry.1 entry.2)
          filesChecked :=
            (analyzer.readTexts workspace.directory workspace.tree files).length } := by
  induction files with
  | nil => rfl
  | cons file others ih =>
      rw [lintFiles, ih]
      cases read : analyzer.readFile workspace.directory workspace.tree file.path with
      | error error =>
          have stops : analyzer.refused? workspace.directory workspace.tree (file :: others) =
              some error := by
            simp [refused?, refusal?, read]
          rw [stops]
          rfl
      | ok found =>
          have goesOn : analyzer.refused? workspace.directory workspace.tree (file :: others) =
              analyzer.refused? workspace.directory workspace.tree others := by
            simp [refused?, refusal?, read]
          rw [goesOn]
          cases analyzer.refused? workspace.directory workspace.tree others with
          | some error => rfl
          | none =>
              cases found with
              | none =>
                  simp [readTexts, read, LintReport.extend, bind, Except.bind, pure, Except.pure]
              | some text =>
                  simp [readTexts, read, LintReport.extend, bind, Except.bind, pure, Except.pure,
                    Nat.add_comm]

variable {directory tree} in
/-- If no file stops a run, the texts that are read are those that the files hold. -/
theorem readTexts_eq_checked {files : List FoundFile} (opens : tree.Opens directory files)
    (goesOn : analyzer.refused? directory tree files = none) :
    analyzer.readTexts directory tree files = checked files := by
  apply List.filterMap_congr
  intro file member
  rw [analyzer.readFile_eq opens member, (analyzer.refused?_eq_none_iff).mp goesOn file member]
  cases Text.decode? file.bytes <;> rfl

/-- If all found files are opened by their paths, linting reports the violations of all texts. -/
theorem lintFiles_eq {workspace : Workspace} (base : Path) {files : List FoundFile}
    (opens : workspace.tree.Opens workspace.directory files) :
    analyzer.lintFiles workspace base files =
      match analyzer.refused? workspace.directory workspace.tree files with
      | some error => .error error
      | none => .ok {
          violations := (checked files).flatMap fun entry =>
            analyzer.lint (sourceOf base entry.1 entry.2)
          filesChecked := (checked files).length } := by
  rw [lintFiles_eq_readTexts]
  cases goesOn : analyzer.refused? workspace.directory workspace.tree files with
  | some error => rfl
  | none => rw [analyzer.readTexts_eq_checked opens goesOn]

/-! ## Formatting -/

/-- The change that mending a text makes, if it makes one. -/
def changeOf (base : Path) (entry : FoundFile × Text) : Option FileChange :=
  if (analyzer.fix entry.1.path entry.2).1 = entry.2 then none
  else some {
    file := (sourceOf base entry.1 entry.2).relativePath
    fixed := (analyzer.fix entry.1.path entry.2).2 }

theorem changeOf_eq_some_iff {base : Path} {entry : FoundFile × Text} {change : FileChange} :
    analyzer.changeOf base entry = some change ↔
      (analyzer.fix entry.1.path entry.2).1 ≠ entry.2 ∧
        change = ⟨base.relativeTo entry.1.path, (analyzer.fix entry.1.path entry.2).2⟩ := by
  rw [changeOf, Option.ite_none_left_eq_some, Option.some.injEq, @eq_comm _ _ change]
  rfl

/-- The changes name the texts that mending does not leave alone, in their order. -/
theorem map_file_filterMap_changeOf (base : Path) (entries : List (FoundFile × Text)) :
    (entries.filterMap (analyzer.changeOf base)).map FileChange.file =
      (entries.filter fun entry => (analyzer.fix entry.1.path entry.2).1 ≠ entry.2).map
        fun entry => base.relativeTo entry.1.path := by
  induction entries with
  | nil => rfl
  | cons entry others ih =>
      by_cases unchanged : (analyzer.fix entry.1.path entry.2).1 = entry.2
      · simp [changeOf, unchanged, ih]
      · simp [changeOf, unchanged, ih, sourceOf, Source.ofFile]

/-- What mending makes of the bytes under a path. -/
def mendBytes (path : Path) (bytes : ByteArray) : ByteArray :=
  match Text.decode? bytes with
  | some text => Text.encode (analyzer.fix path text).1
  | none => bytes

/-- What mending the given files makes of the bytes at an address. -/
def mending : List FoundFile → Address → ByteArray → ByteArray
  | [], _ => id
  | file :: others, address =>
    if address = file.address then analyzer.mendBytes file.path else mending others address

/-- The tree after the turn of a file. -/
def nextTree (mode : Mode) (file : FoundFile) (tree : FileTree) : FileTree :=
  match mode with
  | .write => tree.rewrite (FileTree.changeAt file.address (analyzer.mendBytes file.path))
  | .dryRun => tree

/-- The report after the turn of a file. -/
def nextReport (base : Path) (file : FoundFile) (report : FormatReport) : FormatReport :=
  match Text.decode? file.bytes with
  | some text => addFile report (analyzer.changeOf base (file, text))
  | none => report

private theorem takeWhile_congr {Item : Type} {first second : Item → Bool} {items : List Item}
    (agree : ∀ item ∈ items, first item = second item) :
    items.takeWhile first = items.takeWhile second := by
  induction items with
  | nil => rfl
  | cons item others ih =>
      obtain ⟨here, later⟩ := List.forall_mem_cons.mp agree
      rw [List.takeWhile_cons, List.takeWhile_cons, here, ih later]

section Step

variable {directory tree} {file : FoundFile} {others : List FoundFile}

theorem mendBytes_of_no_text (path : Path) {bytes : ByteArray}
    (noText : Text.decode? bytes = none) : analyzer.mendBytes path bytes = bytes := by
  rw [mendBytes, noText]

theorem rewrite_changeAt_of_eq (wellFormed : tree.WellFormed)
    (inTree : tree.get? file.address = some (.file file.bytes))
    (unchanged : analyzer.mendBytes file.path file.bytes = file.bytes) :
    tree.rewrite (FileTree.changeAt file.address (analyzer.mendBytes file.path)) = tree := by
  rw [← FileTree.put_eq_rewrite wellFormed inTree, unchanged, FileTree.put_self wellFormed inTree]

theorem formatFile_eq (mode : Mode) (base : Path) (wellFormed : tree.WellFormed)
    (opens : tree.Opens directory (file :: others))
    (goesOn : analyzer.refusal? directory tree file = none) {text : Text}
    (decoded : Text.decode? file.bytes = some text) :
    analyzer.formatFile mode directory base file text tree =
      .ok (analyzer.nextTree mode file tree, analyzer.changeOf base (file, text)) := by
  have leads := ((analyzer.refusal?_eq_none_iff opens List.mem_cons_self).mp goesOn).1
  have inTree := opens.get?_eq file List.mem_cons_self
  have mended : analyzer.mendBytes file.path file.bytes =
      Text.encode (analyzer.fix file.path text).1 := by
    rw [mendBytes, decoded]
  rw [formatFile, changeOf]
  generalize analyzer.fix file.path text = result at mended ⊢
  by_cases unchanged : result.1 = text
  · rw [unchanged, Text.encode_of_decode? decoded] at mended
    dsimp only
    rw [if_pos unchanged, if_pos unchanged]
    cases mode with
    | dryRun => rfl
    | write =>
        rw [nextTree, analyzer.rewrite_changeAt_of_eq wellFormed inTree mended]
        rfl
  · dsimp only
    rw [if_neg unchanged, if_neg unchanged]
    cases mode with
    | dryRun => rfl
    | write =>
        dsimp only [nextTree]
        rw [opens.write_eq List.mem_cons_self leads, ← mended,
          FileTree.put_eq_rewrite wellFormed inTree]
        rfl

/-- The turn of a file that does not fail the run. -/
theorem formatNext_eq (mode : Mode) (base : Path) (report : FormatReport)
    (wellFormed : tree.WellFormed) (opens : tree.Opens directory (file :: others)) :
    analyzer.formatNext mode directory base file report tree =
      match analyzer.refusal? directory tree file with
      | some error => .error error
      | none => .ok (analyzer.nextTree mode file tree, analyzer.nextReport base file report) := by
  rw [formatNext, analyzer.readFile_eq opens List.mem_cons_self, nextReport]
  cases goesOn : analyzer.refusal? directory tree file with
  | some error => rfl
  | none =>
      dsimp only [bind, Except.bind]
      cases decoded : Text.decode? file.bytes with
      | some text =>
          dsimp only
          rw [analyzer.formatFile_eq mode base wellFormed opens goesOn decoded]
          rfl
      | none =>
          have inTree := opens.get?_eq file List.mem_cons_self
          have unchanged := analyzer.mendBytes_of_no_text file.path decoded
          cases mode with
          | dryRun => rfl
          | write =>
              rw [nextTree, analyzer.rewrite_changeAt_of_eq wellFormed inTree unchanged]
              rfl

/-- The turn of a file leaves a tree that opens all files to come. -/
theorem opens_nextTree (mode : Mode) (wellFormed : tree.WellFormed)
    (opens : tree.Opens directory (file :: others)) :
    (analyzer.nextTree mode file tree).WellFormed ∧
      (analyzer.nextTree mode file tree).Opens directory others := by
  cases mode with
  | dryRun => exact ⟨wellFormed, opens.sublist (List.sublist_cons_self file others)⟩
  | write => exact ⟨wellFormed.rewrite _, opens.tail_rewrite _⟩

theorem refusal?_nextTree (mode : Mode) (opens : tree.Opens directory (file :: others))
    {other : FoundFile} (member : other ∈ others) :
    analyzer.refusal? directory (analyzer.nextTree mode file tree) other =
      analyzer.refusal? directory tree other := by
  cases mode with
  | dryRun => rfl
  | write => exact analyzer.refusal?_rewrite opens _ member

theorem reached_nextTree (mode : Mode) (opens : tree.Opens directory (file :: others)) :
    analyzer.reached directory (analyzer.nextTree mode file tree) others =
      analyzer.reached directory tree others := by
  rw [reached, reached]
  apply takeWhile_congr
  intro other member
  rw [analyzer.refusal?_nextTree mode opens member]

theorem refused?_nextTree (mode : Mode) (opens : tree.Opens directory (file :: others)) :
    analyzer.refused? directory (analyzer.nextTree mode file tree) others =
      analyzer.refused? directory tree others := by
  rw [refused?, refused?, ← List.head?_filterMap, ← List.head?_filterMap,
    List.filterMap_congr fun other member => analyzer.refusal?_nextTree mode opens member]

end Step

/-! ## The loop of formatting -/

theorem mending_eq_id_of_forall_ne {files : List FoundFile} {address : Address}
    (elsewhere : ∀ file ∈ files, address ≠ file.address) : analyzer.mending files address = id := by
  induction files with
  | nil => rfl
  | cons file others ih =>
      rw [mending, if_neg (elsewhere file List.mem_cons_self)]
      exact ih fun other member => elsewhere other (List.mem_cons_of_mem file member)

theorem mending_of_mem {files : List FoundFile} (nodup : (files.map FoundFile.address).Nodup)
    {file : FoundFile} (member : file ∈ files) :
    analyzer.mending files file.address = analyzer.mendBytes file.path := by
  induction files with
  | nil => cases member
  | cons first others ih =>
      rcases List.mem_cons.mp member with rfl | later
      · rw [mending, if_pos rfl]
      · have elsewhere : first.address ≠ file.address :=
          List.rel_of_pairwise_cons (List.pairwise_map.mp nodup) later
        rw [mending, if_neg elsewhere.symm, ih nodup.of_cons later]

/-- Mending has its effect at the addresses of the files and nowhere else. -/
theorem mending_cases {files : List FoundFile} (nodup : (files.map FoundFile.address).Nodup)
    (address : Address) :
    (∃ file ∈ files, address = file.address ∧
      analyzer.mending files address = analyzer.mendBytes file.path) ∨
    analyzer.mending files address = id := by
  by_cases listed : ∃ file ∈ files, address = file.address
  · obtain ⟨file, member, rfl⟩ := listed
    exact Or.inl ⟨file, member, rfl, analyzer.mending_of_mem nodup member⟩
  · refine Or.inr (analyzer.mending_eq_id_of_forall_ne ?_)
    intro file member same
    exact listed ⟨file, member, same⟩

/-- What formatting makes of a tree. -/
def mendedTree (mode : Mode) (files : List FoundFile) (tree : FileTree) : FileTree :=
  match mode with
  | .write => tree.rewrite (analyzer.mending files)
  | .dryRun => tree

theorem mendedTree_cons (mode : Mode) {file : FoundFile} {others : List FoundFile}
    (elsewhere : ∀ other ∈ others, file.address ≠ other.address) (tree : FileTree) :
    analyzer.mendedTree mode others (analyzer.nextTree mode file tree) =
      analyzer.mendedTree mode (file :: others) tree := by
  cases mode with
  | dryRun => rfl
  | write =>
      simp only [mendedTree, nextTree, FileTree.rewrite_rewrite]
      -- The change of this file and those of the others are at different addresses.
      congr 1
      funext address bytes
      rw [mending, FileTree.changeAt]
      split
      next here =>
        subst here
        rw [analyzer.mending_eq_id_of_forall_ne elsewhere]
        rfl
      next => rfl

theorem nextReport_append (base : Path) (file : FoundFile) (report : FormatReport)
    (others : List FoundFile) :
    FormatReport.mk
        ((analyzer.nextReport base file report).changed ++
          (checked others).filterMap (analyzer.changeOf base))
        ((analyzer.nextReport base file report).filesChecked + (checked others).length) =
      ⟨report.changed ++ (checked (file :: others)).filterMap (analyzer.changeOf base),
        report.filesChecked + (checked (file :: others)).length⟩ := by
  rw [nextReport]
  cases decoded : Text.decode? file.bytes with
  | none => rw [checked_cons_of_no_text decoded]
  | some text =>
      rw [checked_cons_of_text decoded]
      cases change : analyzer.changeOf base (file, text) <;>
        simp [addFile, change, Nat.add_assoc, Nat.add_comm]

/-- Formatting mends the files up to the one at which it stops, and says of every text how it is
changed, or why it stops. -/
theorem formatFiles_eq (mode : Mode) (base : Path) (report : FormatReport)
    {directory : Address} {files : List FoundFile} {tree : FileTree}
    (wellFormed : tree.WellFormed) (opens : tree.Opens directory files) :
    analyzer.formatFiles mode directory base report files tree =
      (analyzer.mendedTree mode (analyzer.reached directory tree files) tree,
        match analyzer.refused? directory tree files with
        | some error => .error error
        | none => .ok {
            changed := report.changed ++ (checked files).filterMap (analyzer.changeOf base)
            filesChecked := report.filesChecked + (checked files).length }) := by
  induction files generalizing report tree with
  | nil => cases mode <;> simp [formatFiles, refused?, reached, mendedTree, mending, checked]
  | cons file others ih =>
      rw [formatFiles, analyzer.formatNext_eq mode base report wellFormed opens, refused?, reached,
        List.findSome?_cons, List.takeWhile_cons]
      cases analyzer.refusal? directory tree file with
      | some error => cases mode <;> simp [mendedTree, mending]
      | none =>
          -- The files to come are read from the tree that this step leaves.
          obtain ⟨wellFormedNext, opensNext⟩ := analyzer.opens_nextTree mode wellFormed opens
          have elsewhere : ∀ other ∈ analyzer.reached directory tree others,
              file.address ≠ other.address := by
            intro other isReached
            exact List.rel_of_pairwise_cons (List.pairwise_map.mp opens.addresses_nodup)
              (analyzer.reached_subset others isReached)
          dsimp only
          rw [ih _ wellFormedNext opensNext, analyzer.reached_nextTree mode opens,
            analyzer.refused?_nextTree mode opens, analyzer.mendedTree_cons mode elsewhere,
            analyzer.nextReport_append]
          rfl

theorem formatFile_dryRun (base : Path) (file : FoundFile) (text : Text) :
    analyzer.formatFile .dryRun directory base file text tree =
      .ok (tree, analyzer.changeOf base (file, text)) := by
  rw [formatFile, changeOf]
  generalize analyzer.fix file.path text = result
  by_cases unchanged : result.1 = text <;> simp [unchanged, pure, Except.pure]

theorem formatNext_dryRun_fst {base : Path} {file : FoundFile} {report : FormatReport}
    {next : FileTree × FormatReport}
    (turned : analyzer.formatNext .dryRun directory base file report tree = .ok next) :
    next.1 = tree := by
  obtain ⟨read, -, goesOn⟩ := bind_eq_ok_iff.mp turned
  cases read with
  | none => exact congrArg Prod.fst (Except.ok.inj goesOn).symm
  | some text =>
      dsimp only at goesOn
      rw [formatFile_dryRun] at goesOn
      exact congrArg Prod.fst (Except.ok.inj goesOn).symm

/-- A dry run leaves the tree alone. -/
theorem formatFiles_dryRun_fst (base : Path) (report : FormatReport) (files : List FoundFile) :
    (analyzer.formatFiles .dryRun directory base report files tree).1 = tree := by
  induction files generalizing report with
  | nil => rfl
  | cons file others ih =>
      rw [formatFiles]
      cases turned : analyzer.formatNext .dryRun directory base file report tree with
      | error error => rfl
      | ok next =>
          obtain ⟨tree, report⟩ := next
          obtain rfl := analyzer.formatNext_dryRun_fst directory _ turned
          exact ih report

end Analyzer
end TidyLines
