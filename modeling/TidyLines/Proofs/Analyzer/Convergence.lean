import TidyLines.Proofs.Analyzer.Agreement
import TidyLines.Proofs.Analyzer.Formatting

/-!
# Formatting settles

With the rules of the catalogue, a run that writes leaves nothing to do for any later run
(`Analyzer.Settled`).  That holds because mended texts stay as they are, and because the files are
found again as long as no ignore file was among those written.  Sequences of calls are followed by
induction: up to the first one that writes nothing changes, and from then on nothing changes any
more.
-/

namespace TidyLines.Analyzer

variable {analyzer : Analyzer} {config : Config} {workspace : Workspace} {files : List FoundFile}

/-! ## Mending what is mended -/

theorem fix_fix (offers : Catalogue.Offers config analyzer.rules) (path : Path) (text : Text) :
    (analyzer.fix path (analyzer.fix path text).1).1 = (analyzer.fix path text).1 := by
  rcases enabledRules_of_offers offers with ⟨settings, onlyRule⟩ | noRule
  · rw [fix_eq onlyRule, fix_eq onlyRule, settings.correct_correct]
  · rw [fix_eq_self noRule, fix_eq_self noRule]

theorem decode?_mendBytes (path : Path) (bytes : ByteArray) :
    Text.decode? (analyzer.mendBytes path bytes) =
      (Text.decode? bytes).map fun text => (analyzer.fix path text).1 := by
  cases decoded : Text.decode? bytes <;> simp [mendBytes, decoded]

theorem rewrite_mending (holds : workspace.tree.Holds files) {file : FoundFile}
    (member : file ∈ files) :
    file.rewrite (analyzer.mending files) =
      { file with bytes := analyzer.mendBytes file.path file.bytes } := by
  rw [FoundFile.rewrite, analyzer.mending_of_mem holds.addresses_nodup member]

theorem isSome_decode?_rewrite (holds : workspace.tree.Holds files) {file : FoundFile}
    (member : file ∈ files) :
    (Text.decode? (file.rewrite (analyzer.mending files)).bytes).isSome =
      (Text.decode? file.bytes).isSome := by
  rw [rewrite_mending holds member, decode?_mendBytes, Option.isSome_map]

theorem length_checked_rewrite (holds : workspace.tree.Holds files) :
    (checked (files.map (FoundFile.rewrite (analyzer.mending files)))).length =
      (checked files).length := by
  rw [length_checked, length_checked, List.countP_map]
  apply List.countP_congr
  intro file member
  rw [Function.comp_apply, isSome_decode?_rewrite holds member]

/-! ## Workspaces with nothing to do -/

variable (analyzer) in
/-- The files can be read, and all texts among them are mended. -/
structure Settled (workspace : Workspace) (files : List FoundFile) : Prop where
  readable_eq : analyzer.readable workspace = .ok files
  mended : ∀ file text, (file, text) ∈ checked files → (analyzer.fix file.path text).1 = text

theorem Settled.allChanges_eq (settled : analyzer.Settled workspace files) :
    analyzer.allChanges workspace files = [] := by
  rw [List.eq_nil_iff_forall_not_mem]
  intro change member
  obtain ⟨file, text, isChecked, changes, -⟩ := analyzer.mem_allChanges.mp member
  exact changes (settled.mended file text isChecked)

theorem Settled.allViolations_eq (settled : analyzer.Settled workspace files)
    (offers : Catalogue.Offers config analyzer.rules) :
    analyzer.allViolations workspace files = [] := by
  rw [List.eq_nil_iff_forall_not_mem]
  intro violation member
  have changed := (exists_violation_iff offers violation.location.file).mp ⟨violation, member, rfl⟩
  rw [settled.allChanges_eq] at changed
  cases changed

theorem Settled.rewrite_mending_eq (settled : analyzer.Settled workspace files)
    (wellFormed : workspace.tree.WellFormed) :
    workspace.rewrite (analyzer.mending files) = workspace := by
  have holds := analyzer.holds_of_discover wellFormed
    (analyzer.readable_eq_ok_iff.mp settled.readable_eq).1
  have sameTree : workspace.tree.rewrite (analyzer.mending files) = workspace.tree := by
    refine (FileTree.rewrite_congr wellFormed ?_).trans workspace.tree.rewrite_id
    intro address bytes found
    rcases analyzer.mending_cases holds.addresses_nodup address with
      ⟨file, member, rfl, mends⟩ | keeps
    · obtain rfl : file.bytes = bytes := by
        simpa [holds.get?_eq file member] using found
      rw [mends]
      by_contra changes
      obtain ⟨text, decoded, notMended⟩ := (mendBytes_ne_iff file.path file.bytes).mp changes
      exact notMended (settled.mended file text (mem_checked.mpr ⟨member, decoded⟩))
    · rw [keeps]
  rw [Workspace.rewrite, sameTree]

/-- A run that writes and leaves alone what the search consults leaves nothing to do. -/
theorem settled_rewrite (wellFormed : workspace.tree.WellFormed)
    (offers : Catalogue.Offers config analyzer.rules)
    (read : analyzer.readable workspace = .ok files)
    (spares : analyzer.search.SparesConsulted workspace (analyzer.mending files)) :
    analyzer.Settled (workspace.rewrite (analyzer.mending files))
      (files.map (FoundFile.rewrite (analyzer.mending files))) := by
  have found := (analyzer.readable_eq_ok_iff.mp read).1
  have holds := analyzer.holds_of_discover wellFormed found
  have foundAgain : analyzer.discover (workspace.rewrite (analyzer.mending files)) =
      .ok (files.map (FoundFile.rewrite (analyzer.mending files))) := by
    rw [discover_eq_ok_iff, Search.find_rewrite spares, analyzer.discover_eq_ok_iff.mp found]
    rfl
  constructor
  case readable_eq =>
    refine analyzer.readable_eq_ok_iff.mpr ⟨foundAgain, analyzer.refused?_eq_none_iff.mpr ?_⟩
    intro file member
    refine (analyzer.refusal?_eq_none_iff
      (analyzer.opens_of_discover (wellFormed.rewrite _) foundAgain) member).mpr ?_
    obtain ⟨original, isFile, rfl⟩ := List.mem_map.mp member
    rw [isSome_decode?_rewrite holds isFile]
    have leads := analyzer.resolve_of_readable wellFormed read isFile
    rwa [← FileTree.resolve_rewrite workspace.tree (analyzer.mending files)] at leads
  case mended =>
    intro file text isChecked
    obtain ⟨isFile, decoded⟩ := mem_checked.mp isChecked
    obtain ⟨original, member, rfl⟩ := List.mem_map.mp isFile
    rw [rewrite_mending holds member] at decoded ⊢
    rw [decode?_mendBytes, Option.map_eq_some_iff] at decoded
    obtain ⟨before, -, rfl⟩ := decoded
    exact fix_fix offers original.path before

/-! ## Sequences of calls -/

/-- What can be asked of an analyzer. -/
inductive Call where
  | analyze
  | format (mode : Mode)
  deriving DecidableEq, Repr

/-- What an analyzer answers. -/
inductive Answer where
  | linted (report : LintReport)
  | formatted (report : FormatReport)
  deriving DecidableEq, Repr

namespace Answer

def filesChecked : Answer → Nat
  | linted report => report.filesChecked
  | formatted report => report.filesChecked

/-- An answer that tells of nothing to do. -/
def IsClean : Answer → Prop
  | linted report => report.violations = []
  | formatted report => report.changed = []

end Answer

/-- A workspace after a call, and the answer. -/
def call (analyzer : Analyzer) (workspace : Workspace) :
    Call → Except AnalysisError (Workspace × Answer)
  | .analyze => do return (workspace, .linted (← analyzer.analyze workspace))
  | .format mode => do
    let (tree, result) := analyzer.format mode workspace
    return ({ workspace with tree }, .formatted (← result))

/-- A workspace after calls one after the other, and the answers, if none of them fails. -/
def callAll (analyzer : Analyzer) (workspace : Workspace) :
    List Call → Except AnalysisError (Workspace × List Answer)
  | [] => .ok (workspace, [])
  | first :: others => do
    let (next, answer) ← analyzer.call workspace first
    let (last, answers) ← analyzer.callAll next others
    return (last, answer :: answers)

theorem readable_of_call_eq_ok (wellFormed : workspace.tree.WellFormed) {asked : Call}
    {result : Workspace × Answer} (succeeded : analyzer.call workspace asked = .ok result) :
    ∃ files, analyzer.readable workspace = .ok files := by
  cases read : analyzer.readable workspace with
  | ok files => exact ⟨files, rfl⟩
  | error error =>
      exfalso
      cases asked with
      | analyze =>
          simp [call, analyzer.analyze_eq wellFormed, read, Except.map, bind, Except.bind]
            at succeeded
      | format mode =>
          simp [call, analyzer.format_snd_eq wellFormed, read, Except.map, bind, Except.bind]
            at succeeded

/-- A call on files that can be read succeeds; only writing changes the workspace. -/
theorem call_of_readable (wellFormed : workspace.tree.WellFormed)
    (read : analyzer.readable workspace = .ok files) (asked : Call) :
    ∃ answer, analyzer.call workspace asked =
        .ok (if asked = .format .write then workspace.rewrite (analyzer.mending files)
          else workspace, answer) ∧
      answer.filesChecked = (checked files).length ∧
      (analyzer.allViolations workspace files = [] → analyzer.allChanges workspace files = [] →
        answer.IsClean) := by
  cases asked with
  | analyze =>
      refine ⟨_, by rw [call, analyzer.analyze_eq wellFormed, read]; rfl, rfl, ?_⟩
      intro noViolations _
      simp [Answer.IsClean, noViolations]
  | format mode =>
      have result := analyzer.format_snd_eq wellFormed mode
      rw [read] at result
      have tree : (analyzer.format mode workspace).1 =
          (if mode = .write then workspace.rewrite (analyzer.mending files)
            else workspace).tree := by
        cases mode with
        | write => exact analyzer.format_write_fst wellFormed read
        | dryRun => exact analyzer.format_dryRun_fst workspace
      refine ⟨.formatted ⟨analyzer.allChanges workspace files, (checked files).length⟩, ?_, rfl, ?_⟩
      · rw [call]
        simp only [result, tree, Except.map, bind, Except.bind, pure, Except.pure]
        cases mode <;> rfl
      · intro _ noChanges
        exact noChanges

theorem callAll_cons {workspace next last : Workspace} {first : Call} {others : List Call}
    {answer : Answer} {answers : List Answer}
    (head : analyzer.call workspace first = .ok (next, answer))
    (tail : analyzer.callAll next others = .ok (last, answers)) :
    analyzer.callAll workspace (first :: others) = .ok (last, answer :: answers) := by
  rw [callAll, head]
  simp only [bind, Except.bind, tail]
  rfl

/-- Where nothing is to do, calls change nothing and tell of nothing. -/
theorem Settled.callAll_eq (settled : analyzer.Settled workspace files)
    (wellFormed : workspace.tree.WellFormed) (offers : Catalogue.Offers config analyzer.rules)
    (calls : List Call) :
    ∃ answers, analyzer.callAll workspace calls = .ok (workspace, answers) ∧
      ∀ answer ∈ answers, answer.IsClean ∧ answer.filesChecked = (checked files).length := by
  induction calls with
  | nil => exact ⟨[], rfl, fun _ member => absurd member List.not_mem_nil⟩
  | cons first others ih =>
      obtain ⟨answers, succeeded, allClean⟩ := ih
      obtain ⟨answer, called, counted, clean⟩ :=
        call_of_readable wellFormed settled.readable_eq first
      rw [settled.rewrite_mending_eq wellFormed, ite_self] at called
      refine ⟨answer :: answers, callAll_cons called succeeded, ?_⟩
      rw [List.forall_mem_cons]
      exact ⟨⟨clean (settled.allViolations_eq offers) settled.allChanges_eq, counted⟩, allClean⟩

/-- Once the files can be read, all calls succeed.  The first one that writes brings the workspace
to where it stays. -/
theorem callAll_of_readable (wellFormed : workspace.tree.WellFormed)
    (offers : Catalogue.Offers config analyzer.rules)
    (read : analyzer.readable workspace = .ok files)
    (spares : analyzer.search.SparesConsulted workspace (analyzer.mending files))
    (calls : List Call) :
    ∃ answers, analyzer.callAll workspace calls =
        .ok (if .format .write ∈ calls then workspace.rewrite (analyzer.mending files)
          else workspace, answers) ∧
      (∀ count, .format .write ∈ calls.take count → ∀ answer ∈ answers.drop count,
        answer.IsClean) ∧
      ∀ answer ∈ answers, answer.filesChecked = (checked files).length := by
  -- The workspace is fixed in the induction: the only call that changes it ends the induction, for
  -- what follows on it is calls on a settled workspace.
  induction calls with
  | nil => exact ⟨[], rfl, by simp, by simp⟩
  | cons first others ih =>
      obtain ⟨answer, called, counted, -⟩ := call_of_readable wellFormed read first
      by_cases writes : first = .format .write
      · -- From here on nothing is to do.
        have settled := settled_rewrite wellFormed offers read spares
        have holds := analyzer.holds_of_discover wellFormed (analyzer.readable_eq_ok_iff.mp read).1
        obtain ⟨answers, succeeded, allClean⟩ :=
          settled.callAll_eq (wellFormed.rewrite _) offers others
        rw [if_pos writes] at called
        refine ⟨answer :: answers, ?_, ?_, ?_⟩
        · rw [writes, if_pos List.mem_cons_self, ← writes]
          exact callAll_cons called succeeded
        · intro count soFar later member
          cases count with
          | zero => cases soFar
          | succ count => exact (allClean later (List.mem_of_mem_drop member)).1
        · rw [List.forall_mem_cons]
          refine ⟨counted, fun later member => ?_⟩
          rw [(allClean later member).2, length_checked_rewrite holds]
      · -- The workspace is the same, and so is what the calls to come do.
        have mem_cons_iff : ∀ more : List Call,
            .format .write ∈ first :: more ↔ .format .write ∈ more := by
          intro more
          rw [List.mem_cons, or_iff_right (Ne.symm writes)]
        obtain ⟨answers, succeeded, cleanAfter, allCounted⟩ := ih
        rw [if_neg writes] at called
        refine ⟨answer :: answers, ?_, ?_, ?_⟩
        · simp only [mem_cons_iff]
          exact callAll_cons called succeeded
        · intro count soFar later member
          cases count with
          | zero => cases soFar
          | succ count =>
              rw [List.take_succ_cons, mem_cons_iff] at soFar
              exact cleanAfter count soFar later member
        · rw [List.forall_mem_cons]
          exact ⟨counted, allCounted⟩

/-- With rules of the catalogue, any calls that succeed leave the tree alone if none of them writes,
and otherwise leave it as a single one that writes does, after which there is nothing to tell.  The
ignore files that count must not be among the files that are written. -/
theorem callAll_settles (analyzer : Analyzer) {config : Config} {workspace : Workspace}
    (wellFormed : workspace.tree.WellFormed)
    (offers : Catalogue.Offers config analyzer.rules)
    (undisturbed : ∀ address, analyzer.search.Consults workspace address →
      (analyzer.format .write workspace).1.get? address = workspace.tree.get? address)
    {calls : List Call} {last : Workspace} {answers : List Answer}
    (succeeded : analyzer.callAll workspace calls = .ok (last, answers)) :
    last = { workspace with
        tree := if .format .write ∈ calls then (analyzer.format .write workspace).1
          else workspace.tree } ∧
      (∀ count, .format .write ∈ calls.take count → ∀ answer ∈ answers.drop count,
        answer.IsClean) ∧
      ∃ filesChecked, ∀ answer ∈ answers, answer.filesChecked = filesChecked := by
  cases calls with
  | nil =>
      obtain ⟨rfl, rfl⟩ := Prod.mk.inj (Except.ok.inj succeeded)
      exact ⟨rfl, by simp, 0, by simp⟩
  | cons first others =>
      cases called : analyzer.call workspace first with
      | error error => simp [callAll, called, bind, Except.bind] at succeeded
      | ok result =>
          obtain ⟨files, read⟩ := readable_of_call_eq_ok wellFormed called
          have written := analyzer.format_write_fst wellFormed read
          have spares : analyzer.search.SparesConsulted workspace (analyzer.mending files) := by
            intro address consulted
            rw [← written]
            exact undisturbed address consulted
          obtain ⟨expected, alsoSucceeded, cleanAfter, allCounted⟩ :=
            callAll_of_readable wellFormed offers read spares (first :: others)
          rw [alsoSucceeded, Except.ok.injEq, Prod.mk.injEq] at succeeded
          obtain ⟨rfl, rfl⟩ := succeeded
          refine ⟨?_, cleanAfter, _, allCounted⟩
          rw [written]
          split <;> rfl

theorem callAll_settles_sample :
    sampleWorkspace.tree.WellFormed ∧ Catalogue.Offers {} sampleAnalyzer.rules ∧
      (∀ address, sampleAnalyzer.search.Consults sampleWorkspace address →
        (sampleAnalyzer.format .write sampleWorkspace).1.get? address =
          sampleWorkspace.tree.get? address) ∧
      ∃ last, sampleAnalyzer.callAll sampleWorkspace [.format .write, .analyze] =
          .ok (last, [.formatted ⟨[⟨⟨["a"]⟩, 2⟩], 1⟩, .linted ⟨[], 1⟩]) ∧
        last.tree = (sampleAnalyzer.format .write sampleWorkspace).1 := by
  have offers : Catalogue.Offers {} sampleAnalyzer.rules := ⟨_, rfl, Or.inl rfl⟩
  have written : (sampleAnalyzer.format .write sampleWorkspace).1 =
      sampleWorkspace.tree.put ["p", "a"] (.file (Text.encode ['\n', 'x'])) := by cbv
  have succeeded : sampleAnalyzer.callAll sampleWorkspace [.format .write, .analyze] =
      .ok ({ sampleWorkspace with
        tree := sampleWorkspace.tree.put ["p", "a"] (.file (Text.encode ['\n', 'x'])) },
        [.formatted ⟨[⟨⟨["a"]⟩, 2⟩], 1⟩, .linted ⟨[], 1⟩]) := by cbv
  have undisturbed : ∀ address, sampleAnalyzer.search.Consults sampleWorkspace address →
      (sampleAnalyzer.format .write sampleWorkspace).1.get? address =
        sampleWorkspace.tree.get? address := by
    intro address consulted
    have elsewhere : address ≠ ["p", "a"] := by
      rintro rfl
      simpa using getLast?_of_consults_sample consulted
    rw [written, FileTree.get?_put _ _ _ _ (List.cons_ne_nil _ _), if_neg elsewhere]
  have settles := sampleAnalyzer.callAll_settles wellFormed_sampleWorkspace offers undisturbed
    succeeded
  exact ⟨wellFormed_sampleWorkspace, offers, undisturbed, _, succeeded, settles.1 ▸ rfl⟩

end TidyLines.Analyzer
