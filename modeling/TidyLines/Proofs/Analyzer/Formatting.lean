import Mathlib.Data.List.Nodup
import TidyLines.Proofs.Analyzer.Runs
import TidyLines.Proofs.Rule.Locality

/-!
# What formatting writes

A run that writes reports what a dry run reports, although it reads from a tree that it is changing
on the way.  It mends the texts that it finds and touches nothing else, and its report lists the
files whose bytes are others afterwards (`Analyzer.Mends`).
-/

namespace TidyLines

namespace Analyzer

variable (analyzer : Analyzer)

/-! ## Mending one text -/

theorem fixStep_eq_or_lt (path : Path) (state : Text × Nat) (rule : Rule) :
    fixStep path state rule = state ∨ state.2 < (fixStep path state rule).2 := by
  simp only [fixStep]
  split
  next nothing => exact Or.inl rfl
  next something =>
    split
    next text mends => exact Or.inr (by dsimp only; omega)
    next mendsNot => exact Or.inl rfl

theorem foldl_fixStep_eq_or_lt (path : Path) (state : Text × Nat) (rules : List Rule) :
    rules.foldl (fixStep path) state = state ∨
      state.2 < (rules.foldl (fixStep path) state).2 := by
  induction rules generalizing state with
  | nil => exact Or.inl rfl
  | cons rule others ih =>
      rw [List.foldl_cons]
      rcases ih (fixStep path state rule) with stays | grows
      · rw [stays]
        exact fixStep_eq_or_lt path state rule
      · rcases fixStep_eq_or_lt path state rule with same | less
        · rw [same] at grows ⊢
          exact Or.inr grows
        · exact Or.inr (less.trans grows)

/-- A text changes only if some rule has found something. -/
theorem fixed_pos_of_changed {path : Path} {text : Text}
    (changed : (analyzer.fix path text).1 ≠ text) : 1 ≤ (analyzer.fix path text).2 := by
  rcases foldl_fixStep_eq_or_lt path (text, 0) (analyzer.enabledRules.filter Rule.fixable) with
    same | less
  · exact absurd (congrArg Prod.fst same) changed
  · exact less

theorem fixStep_path (path other : Path) (state : Text × Nat) {rule : Rule}
    (onText : rule.DependsOnText) : fixStep path state rule = fixStep other state rule := by
  rw [fixStep, fixStep,
    onText.length_check_eq (.named path state.1) (.named other state.1) rfl,
    onText.fix_eq (.named path state.1) (.named other state.1) rfl]

/-- Rules that look at the text alone mend it under any path in the same way. -/
theorem fix_path (onText : ∀ rule ∈ analyzer.rules, rule.DependsOnText) (path other : Path)
    (text : Text) : analyzer.fix path text = analyzer.fix other text := by
  rw [fix, fix]
  apply List.foldl_ext
  intro state rule member
  have listed : rule ∈ analyzer.rules := (List.mem_filter.mp (List.mem_filter.mp member).1).1
  exact fixStep_path path other state (onText rule listed)

/-! ## Mending a tree -/

/-- A tree is what formatting makes of the files found in a workspace, and a report tells of it. -/
structure Mends (workspace : Workspace) (files : List FoundFile) (after : FileTree)
    (report : FormatReport) : Prop where
  found_in_tree : workspace.tree.Holds files
  texts_mended : ∀ file ∈ files, ∀ text, Text.decode? file.bytes = some text →
    after.get? file.address = some (.file (Text.encode (analyzer.formatText text)))
  /-- Whatever is not a text that has to be mended is as it was: another place than that of a found
  file, a file that is no text, a text that is well as it is. -/
  others_kept : ∀ address, (∀ file ∈ files, ∀ text, Text.decode? file.bytes = some text →
      analyzer.formatText text ≠ text → file.address ≠ address) →
    after.get? address = workspace.tree.get? address
  changed_eq : report.changed.map FileChange.file =
    (files.filter fun file => after.get? file.address ≠ workspace.tree.get? file.address).map
      (analyzer.reportedPath workspace)
  changed_nodup : (report.changed.map FileChange.file).Nodup
  fixed_pos : ∀ change ∈ report.changed, 1 ≤ change.fixed

section Tree

variable {analyzer} {workspace : Workspace} {files : List FoundFile}

theorem get?_rewrite_mending (holds : workspace.tree.Holds files) {file : FoundFile}
    (member : file ∈ files) :
    (workspace.tree.rewrite (analyzer.mending files)).get? file.address =
      some (.file (analyzer.mendBytes file.path file.bytes)) := by
  rw [FileTree.get?_rewrite, holds.get?_eq file member,
    analyzer.mending_of_mem holds.addresses_nodup member]
  rfl

theorem get?_format_write_of_reached (wellFormed : workspace.tree.WellFormed)
    (found : analyzer.discover workspace = .ok files) {file : FoundFile}
    (isReached : file ∈ analyzer.reached workspace.directory workspace.tree files) :
    (analyzer.format .write workspace).1.get? file.address =
      some (.file (analyzer.mendBytes file.path file.bytes)) := by
  have holds : workspace.tree.Holds
      (analyzer.reached workspace.directory workspace.tree files) :=
    (analyzer.holds_of_discover wellFormed found).sublist (analyzer.reached_sublist files)
  rw [analyzer.format_write_fst_of_discover wellFormed found]
  exact get?_rewrite_mending holds isReached

theorem get?_format_write_of_forall_ne (wellFormed : workspace.tree.WellFormed)
    (found : analyzer.discover workspace = .ok files) {address : Address}
    (elsewhere : ∀ file ∈ analyzer.reached workspace.directory workspace.tree files,
      address ≠ file.address) :
    (analyzer.format .write workspace).1.get? address = workspace.tree.get? address := by
  rw [analyzer.format_write_fst_of_discover wellFormed found, FileTree.get?_rewrite,
    analyzer.mending_eq_id_of_forall_ne elsewhere]
  cases workspace.tree.get? address <;> simp

theorem get?_format_write_of_not_reached (wellFormed : workspace.tree.WellFormed)
    (found : analyzer.discover workspace = .ok files) {file : FoundFile} (member : file ∈ files)
    (notReached : file ∉ analyzer.reached workspace.directory workspace.tree files) :
    (analyzer.format .write workspace).1.get? file.address = some (.file file.bytes) := by
  have holds := analyzer.holds_of_discover wellFormed found
  rw [get?_format_write_of_forall_ne wellFormed found, holds.get?_eq file member]
  intro other isReached sameAddress
  have otherMember := analyzer.reached_subset files isReached
  obtain rfl := List.inj_on_of_nodup_map holds.addresses_nodup member otherMember sameAddress
  exact notReached isReached

theorem get?_format_write_of_no_text (wellFormed : workspace.tree.WellFormed)
    (found : analyzer.discover workspace = .ok files) {file : FoundFile} (member : file ∈ files)
    (noText : Text.decode? file.bytes = none) :
    (analyzer.format .write workspace).1.get? file.address = some (.file file.bytes) := by
  by_cases isReached : file ∈ analyzer.reached workspace.directory workspace.tree files
  · rw [get?_format_write_of_reached wellFormed found isReached,
      analyzer.mendBytes_of_no_text file.path noText]
  · exact get?_format_write_of_not_reached wellFormed found member isReached

/-- A run that writes leaves an address alone, or it mends the file found there. -/
theorem get?_format_write_cases (wellFormed : workspace.tree.WellFormed)
    (found : analyzer.discover workspace = .ok files) (address : Address) :
    (analyzer.format .write workspace).1.get? address = workspace.tree.get? address ∨
      ∃ file ∈ files, file.address = address ∧
        (analyzer.format .write workspace).1.get? address =
          some (.file (analyzer.mendBytes file.path file.bytes)) := by
  by_cases listed : ∃ file ∈ analyzer.reached workspace.directory workspace.tree files,
      file.address = address
  · obtain ⟨file, isReached, rfl⟩ := listed
    exact Or.inr ⟨file, analyzer.reached_subset files isReached, rfl,
      get?_format_write_of_reached wellFormed found isReached⟩
  · refine Or.inl (get?_format_write_of_forall_ne wellFormed found ?_)
    intro file isReached same
    exact listed ⟨file, isReached, same.symm⟩

theorem mendBytes_of_text (onText : ∀ rule ∈ analyzer.rules, rule.DependsOnText) (path : Path)
    {bytes : ByteArray} {text : Text} (decoded : Text.decode? bytes = some text) :
    analyzer.mendBytes path bytes = Text.encode (analyzer.formatText text) := by
  simp only [mendBytes, decoded, formatText, analyzer.fix_path onText path .empty]

/-- The bytes of a file change exactly when mending changes the text that they stand for. -/
theorem mendBytes_ne_iff (path : Path) (bytes : ByteArray) :
    analyzer.mendBytes path bytes ≠ bytes ↔
      ∃ text, Text.decode? bytes = some text ∧ (analyzer.fix path text).1 ≠ text := by
  cases decoded : Text.decode? bytes with
  | none => simp [mendBytes, decoded]
  | some text =>
      simp only [mendBytes, decoded, Option.some.injEq, exists_eq_left']
      apply not_congr
      constructor
      · intro same
        rw [← Text.encode_of_decode? decoded] at same
        exact Text.encode_injective same
      · intro same
        rw [same, Text.encode_of_decode? decoded]

theorem map_file_allChanges_eq (holds : workspace.tree.Holds files) :
    (analyzer.allChanges workspace files).map FileChange.file =
      (files.filter fun file =>
        (workspace.tree.rewrite (analyzer.mending files)).get? file.address ≠
          workspace.tree.get? file.address).map (analyzer.reportedPath workspace) := by
  rw [map_file_allChanges, map_fst_filter_checked]
  congr 1
  apply List.filter_congr
  intro file member
  rw [get?_rewrite_mending holds member, holds.get?_eq file member, Bool.eq_iff_iff,
    Option.any_eq_true, decide_eq_true_iff]
  simp only [ne_eq, Option.some.injEq, Entry.file.injEq, decide_eq_true_iff]
  exact (mendBytes_ne_iff file.path file.bytes).symm

theorem get?_rewrite_mending_of_kept (onText : ∀ rule ∈ analyzer.rules, rule.DependsOnText)
    (holds : workspace.tree.Holds files) {address : Address}
    (kept : ∀ file ∈ files, ∀ text, Text.decode? file.bytes = some text →
      analyzer.formatText text ≠ text → file.address ≠ address) :
    (workspace.tree.rewrite (analyzer.mending files)).get? address =
      workspace.tree.get? address := by
  rcases analyzer.mending_cases holds.addresses_nodup address with
    ⟨file, member, rfl, -⟩ | keeps
  · have same : analyzer.mendBytes file.path file.bytes = file.bytes := by
      by_contra changes
      obtain ⟨text, decoded, mended⟩ := (mendBytes_ne_iff file.path file.bytes).mp changes
      rw [analyzer.fix_path onText file.path .empty] at mended
      exact kept file member text decoded mended rfl
    rw [get?_rewrite_mending holds member, holds.get?_eq file member, same]
  · rw [FileTree.get?_rewrite, keeps]
    cases workspace.tree.get? address <;> simp

end Tree

variable {workspace : Workspace}

theorem mends_of_format_write_ok (wellFormed : workspace.tree.WellFormed)
    (onText : ∀ rule ∈ analyzer.rules, rule.DependsOnText) {report : FormatReport}
    (succeeded : (analyzer.format .write workspace).2 = .ok report) :
    ∃ files, analyzer.discover workspace = .ok files ∧
      analyzer.Mends workspace files (analyzer.format .write workspace).1 report := by
  obtain ⟨files, read, rfl⟩ := analyzer.exists_of_format_ok wellFormed succeeded
  have found := (analyzer.readable_eq_ok_iff.mp read).1
  have holds := analyzer.holds_of_discover wellFormed found
  rw [analyzer.format_write_fst wellFormed read]
  refine ⟨files, found, ?_⟩
  constructor
  case found_in_tree => exact holds
  case texts_mended =>
    intro file member text decoded
    rw [get?_rewrite_mending holds member, mendBytes_of_text onText file.path decoded]
  case others_kept => exact fun address => get?_rewrite_mending_of_kept onText holds
  case changed_eq => exact map_file_allChanges_eq holds
  case changed_nodup => exact analyzer.nodup_map_file_allChanges wellFormed found
  case fixed_pos =>
    intro change member
    obtain ⟨file, text, -, mended, rfl⟩ := analyzer.mem_allChanges.mp member
    exact analyzer.fixed_pos_of_changed mended

/-- Formatting with rules that look at the text alone: writing reports the same as a dry run, a dry
run leaves the tree alone, and a run that writes and succeeds mends exactly the texts found. -/
theorem format_mends_found_texts (wellFormed : workspace.tree.WellFormed)
    (onText : ∀ rule ∈ analyzer.rules, rule.DependsOnText) :
    (analyzer.format .write workspace).2 = (analyzer.format .dryRun workspace).2 ∧
      (analyzer.format .dryRun workspace).1 = workspace.tree ∧
      ∀ report, (analyzer.format .write workspace).2 = .ok report →
        ∃ files, analyzer.discover workspace = .ok files ∧
          analyzer.Mends workspace files (analyzer.format .write workspace).1 report := by
  refine ⟨?_, analyzer.format_dryRun_fst workspace, ?_⟩
  · rw [analyzer.format_snd_eq wellFormed, analyzer.format_snd_eq wellFormed]
  · intro report
    exact analyzer.mends_of_format_write_ok wellFormed onText

theorem format_mends_sample :
    sampleWorkspace.tree.WellFormed ∧ (∀ rule ∈ sampleAnalyzer.rules, rule.DependsOnText) ∧
      (sampleAnalyzer.format .write sampleWorkspace).2 = .ok ⟨[⟨⟨["a"]⟩, 2⟩], 1⟩ ∧
      ∃ files, sampleAnalyzer.discover sampleWorkspace = .ok files ∧
        sampleAnalyzer.Mends sampleWorkspace files (sampleAnalyzer.format .write sampleWorkspace).1
          ⟨[⟨⟨["a"]⟩, 2⟩], 1⟩ := by
  have onText : ∀ rule ∈ sampleAnalyzer.rules, rule.DependsOnText := by
    intro rule member
    obtain rfl := List.mem_singleton.mp member
    exact TrailingSpaces.dependsOnText_rule {}
  have succeeded : (sampleAnalyzer.format .write sampleWorkspace).2 =
      .ok ⟨[⟨⟨["a"]⟩, 2⟩], 1⟩ := by cbv
  exact ⟨wellFormed_sampleWorkspace, onText, succeeded,
    (sampleAnalyzer.format_mends_found_texts wellFormed_sampleWorkspace onText).2.2 _ succeeded⟩

end Analyzer
end TidyLines
