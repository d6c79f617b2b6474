import Mathlib.Data.List.TakeWhile
import TidyLines.Proofs.Catalogue.Selection
import TidyLines.Proofs.CommandLine.StandardInput
import TidyLines.Proofs.Text.Trimming

/-!
# Names of rules on the command line

The rules to run are given in a list with commas between the names.  This file says which names a
list has without splitting it (`CommandLine.HasName`), and shows that the rules of an analyzer and
the warnings of unknown names depend on these names alone.
-/

namespace TidyLines

namespace CommandLine

/-! ## The names in a list -/

/-- A piece of a list that reaches from one comma or end of the list to the next. -/
def IsItem (list item : Text) : Prop :=
  ',' ∉ item ∧ ∃ before after, list = before ++ item ++ after ∧
    (before = [] ∨ before.getLast? = some ',') ∧ (after = [] ∨ after.head? = some ',')

/-- A word that stands in a text with nothing but white space around it. -/
structure IsWordOf (text word : Text) : Prop where
  exists_around : ∃ opening closing, text = opening ++ word ++ closing ∧
    (∀ character ∈ opening, Whitespace.isUnicodeSpace character = true) ∧
      ∀ character ∈ closing, Whitespace.isUnicodeSpace character = true
  first_not_blank : ∀ character ∈ word.head?, Whitespace.isUnicodeSpace character = false
  last_not_blank : ∀ character ∈ word.getLast?, Whitespace.isUnicodeSpace character = false

/-- A list has a name: an item of it without the white space around, unless that is empty. -/
def HasName (list name : String) : Prop :=
  name ≠ "" ∧ ∃ item, IsItem list.toList item ∧ IsWordOf item name.toList

theorem notMem_of_mem_splitOn {separator : Char} {list part : Text}
    (isPart : part ∈ list.splitOn separator) : separator ∉ part := by
  induction list generalizing part with
  | nil =>
      rw [List.splitOn_nil, List.mem_singleton] at isPart
      rw [isPart]
      exact List.not_mem_nil
  | cons character list ih =>
      rw [List.splitOn_cons_eq_if_modifyHead] at isPart
      split at isPart
      next =>
        rcases List.mem_cons.mp isPart with rfl | later
        · exact List.not_mem_nil
        · exact ih later
      next differs =>
        obtain ⟨first, others, split⟩ :=
          List.exists_cons_of_ne_nil (List.splitOn_ne_nil separator list)
        rw [split] at isPart ih
        rcases List.mem_cons.mp isPart with rfl | later
        · rw [List.mem_cons, not_or]
          exact ⟨fun same => differs (beq_iff_eq.mpr same.symm), ih List.mem_cons_self⟩
        · exact ih (List.mem_cons_of_mem _ later)

theorem intercalate_cons (separator : Char) (item : Text) (after : List Text) :
    [separator].intercalate (item :: after) = item ++ after.flatMap (separator :: ·) := by
  induction after generalizing item with
  | nil => simp
  | cons next after ih =>
      rw [List.intercalate_cons_cons, ih, List.flatMap_cons, List.append_assoc]
      rfl

theorem intercalate_append_cons (separator : Char) (before : List Text) (item : Text)
    (after : List Text) :
    [separator].intercalate (before ++ item :: after) =
      before.flatMap (· ++ [separator]) ++ item ++ after.flatMap (separator :: ·) := by
  induction before with
  | nil => exact intercalate_cons separator item after
  | cons first before ih =>
      have nonempty : before ++ item :: after ≠ [] := by simp
      rw [List.cons_append, List.intercalate_cons_of_ne_nil nonempty, ih, List.flatMap_cons]
      simp only [List.append_assoc]

theorem mem_splitOn_iff (list item : Text) : item ∈ list.splitOn ',' ↔ IsItem list item := by
  constructor
  · intro isPart
    refine ⟨notMem_of_mem_splitOn isPart, ?_⟩
    obtain ⟨before, after, split⟩ := List.append_of_mem isPart
    refine ⟨before.flatMap (· ++ [',']), after.flatMap (',' :: ·), ?_, ?_, ?_⟩
    · rw [← intercalate_append_cons, ← split, List.intercalate_splitOn]
    · rcases List.eq_nil_or_concat before with rfl | ⟨others, last, rfl⟩
      · exact Or.inl rfl
      · right
        simp
    · cases after with
      | nil => exact Or.inl rfl
      | cons next after => exact Or.inr rfl
  · rintro ⟨noComma, before, after, rfl, opens, closes⟩
    have closed : item ∈ (item ++ after).splitOn ',' := by
      rcases closes with rfl | isComma
      · rw [List.append_nil, List.splitOn_eq_singleton noComma]
        exact List.mem_singleton_self item
      · obtain ⟨others, rfl⟩ := List.head?_eq_some_iff.mp isComma
        rw [List.splitOn_append_cons_self_of_not_mem noComma]
        exact List.mem_cons_self
    rw [List.append_assoc]
    rcases opens with rfl | isComma
    · exact closed
    · obtain ⟨others, rfl⟩ := List.getLast?_eq_some_iff.mp isComma
      rw [List.append_assoc, List.singleton_append, List.splitOn_append_cons_self]
      exact List.mem_append_right _ closed

theorem trimWord_eq_iff {text word : Text} (nonempty : word ≠ []) :
    trimWord text = word ↔ IsWordOf text word := by
  rw [trimWord, eq_comm, ← Text.isTrimmed_iff]
  constructor
  · rintro ⟨⟨closing, whole, closingBlank⟩, lastStays⟩
    refine ⟨⟨text.takeWhile Whitespace.isUnicodeSpace, closing, ?_, ?_, closingBlank⟩, ?_,
      lastStays⟩
    · rw [List.append_assoc, ← whole, List.takeWhile_append_dropWhile]
    · exact fun character member => List.mem_takeWhile_imp member
    · intro character isFirst
      have first := List.head?_dropWhile_not Whitespace.isUnicodeSpace text
      rw [whole, List.head?_append_of_ne_nil _ nonempty, isFirst] at first
      exact first
  · rintro ⟨⟨opening, closing, rfl, openingBlank, closingBlank⟩, firstStays, lastStays⟩
    refine ⟨⟨closing, ?_, closingBlank⟩, lastStays⟩
    obtain ⟨first, others, rfl⟩ := List.exists_cons_of_ne_nil nonempty
    rw [List.append_assoc, List.dropWhile_append_of_pos openingBlank, List.cons_append,
      List.dropWhile_cons_of_neg]
    simpa using firstStays first rfl

theorem mem_namesOf_iff (list name : String) : name ∈ namesOf list ↔ HasName list name := by
  have nonempty : name ≠ "" ↔ name.toList ≠ [] := by simp
  rw [HasName, nonempty]
  constructor
  · intro isName
    obtain ⟨word, kept, rfl⟩ := List.mem_map.mp isName
    obtain ⟨isTrimmed, notEmpty⟩ := List.mem_filter.mp kept
    obtain ⟨item, isPart, rfl⟩ := List.mem_map.mp isTrimmed
    rw [Bool.not_eq_true', List.isEmpty_eq_false_iff] at notEmpty
    rw [String.toList_ofList]
    exact ⟨notEmpty, item, (mem_splitOn_iff _ _).mp isPart, (trimWord_eq_iff notEmpty).mp rfl⟩
  · rintro ⟨notEmpty, item, isItem, isWord⟩
    refine List.mem_map.mpr ⟨name.toList, List.mem_filter.mpr ⟨?_, by simpa using notEmpty⟩,
      String.ofList_toList⟩
    exact List.mem_map.mpr
      ⟨item, (mem_splitOn_iff _ _).mpr isItem, (trimWord_eq_iff notEmpty).mpr isWord⟩

/-! ## Analyzers -/

/-- The same target with a list of rules to run. -/
def Target.running (target : Target) (list : String) : Target := { target with rules := some list }

@[simp]
theorem configFor_running (workspace : Workspace) (given : Option Path) (target : Target)
    (list : String) :
    configFor workspace given (target.running list) = configFor workspace given target := rfl

theorem rulesFor_running_eq_ok_iff {target : Target} {list : String} {config : Config}
    {rules : List Rule} :
    rulesFor (target.running list) config = .ok rules ↔
      ∃ offered, Catalogue.ofConfig config = .ok offered ∧
        rules = Catalogue.select offered (namesOf list) := by
  simp only [rulesFor, Target.running, bind_eq_ok_iff, mapError_eq_ok_iff, pure, Except.pure,
    Except.ok.injEq, eq_comm (b := rules)]

/-- An analyzer is made in three steps, and the rules that are named count in the second only. -/
theorem analyzerFor_snd_eq (workspace : Workspace) (given : Option Path) (target : Target) :
    (analyzerFor workspace given target).2 = (do
      let config ← configFor workspace given target
      let rules ← rulesFor target config
      ((planFor target config rules).build workspace.directoryPath).mapError .analyzer) := by
  rw [analyzerFor]
  cases configFor workspace given target with
  | error failure => rfl
  | ok config =>
      cases chosen : rulesFor target config with
      | error failure => simp [chosen, bind, Except.bind]
      | ok rules => simp [chosen, bind, Except.bind, pure, Except.pure]

theorem analyzerFor_fst_eq {workspace : Workspace} {given : Option Path} {target : Target}
    {config : Config} (loaded : configFor workspace given target = .ok config)
    {rules : List Rule} (chosen : rulesFor target config = .ok rules) :
    (analyzerFor workspace given target).1 = unknownRules target := by
  simp [analyzerFor, loaded, chosen, bind, Except.bind, pure, Except.pure]

theorem mem_unknownRules_running_iff (target : Target) (list name : String) :
    .unknownRule name ∈ unknownRules (target.running list) ↔
      HasName list name ∧ Catalogue.select Catalogue.all [name] = [] := by
  simp [unknownRules, Target.running, Catalogue.unknownNames_eq_filter, mem_namesOf_iff]

theorem rulesFor_running_congr (target : Target) {first second : String}
    (sameNames : ∀ name, HasName first name ↔ HasName second name) (config : Config) :
    rulesFor (target.running first) config = rulesFor (target.running second) config := by
  have sameChoice : ∀ rules, Catalogue.select rules (namesOf first) =
      Catalogue.select rules (namesOf second) := by
    intro rules
    apply Catalogue.select_congr
    simpa only [mem_namesOf_iff] using sameNames
  simp only [rulesFor, Target.running, sameChoice]

/-- What is made of a list of rules to run. -/
structure RunsNamed (workspace : Workspace) (given : Option Path) (target : Target)
    (list : String) : Prop where
  /-- The analyzer runs those of the rules of the configuration that the names choose. -/
  analyzer_rules : ∀ analyzer,
    (analyzerFor workspace given (target.running list)).2 = .ok analyzer →
    ∃ config rules, configFor workspace given target = .ok config ∧
      Catalogue.ofConfig config = .ok rules ∧
      analyzer.rules = Catalogue.select rules (namesOf list) ∧ analyzer.rules.Sublist rules
  /-- A name is warned of when it chooses none of all rules. -/
  warnings : ∀ config rules, configFor workspace given target = .ok config →
    Catalogue.ofConfig config = .ok rules → ∀ name,
      .unknownRule name ∈ (analyzerFor workspace given (target.running list)).1 ↔
        HasName list name ∧ Catalogue.select Catalogue.all [name] = []

theorem runsNamed (workspace : Workspace) (given : Option Path) (target : Target)
    (list : String) : RunsNamed workspace given target list where
  analyzer_rules analyzer made := by
    rw [analyzerFor_snd_eq] at made
    simp only [bind_eq_ok_iff, mapError_eq_ok_iff, configFor_running,
      rulesFor_running_eq_ok_iff, Plan.build_eq_ok_iff] at made
    obtain ⟨config, loaded, -, ⟨rules, offered, rfl⟩, excluded, included, -, -, rfl⟩ := made
    exact ⟨config, rules, loaded, offered, rfl, List.filter_sublist⟩
  warnings config rules loaded offered name := by
    have chosen : rulesFor (target.running list) config =
        .ok (Catalogue.select rules (namesOf list)) :=
      rulesFor_running_eq_ok_iff.mpr ⟨rules, offered, rfl⟩
    rw [analyzerFor_fst_eq ((configFor_running ..).trans loaded) chosen,
      mem_unknownRules_running_iff]

/-- The rules that run are chosen by the names in a list, whatever their order and however often
each is there, and the names that are warned of are those that choose nothing. -/
theorem rules_chosen_by_names :
    (∀ rules, Catalogue.ChoosesByName rules) ∧
    (∀ first second, (∀ name, HasName first name ↔ HasName second name) →
      (∀ rules, Catalogue.select rules (namesOf first) =
        Catalogue.select rules (namesOf second)) ∧
      ∀ workspace given (target : Target),
        (analyzerFor workspace given (target.running first)).2 =
          (analyzerFor workspace given (target.running second)).2) ∧
    (∀ list name, name ∈ namesOf list ↔ HasName list name) ∧
    (∀ names, Catalogue.unknownNames names =
      names.filter fun name => (Catalogue.select Catalogue.all [name]).isEmpty) ∧
    ∀ workspace given target list, RunsNamed workspace given target list := by
  refine ⟨Catalogue.choosesByName, ?_, mem_namesOf_iff, Catalogue.unknownNames_eq_filter,
    runsNamed⟩
  intro first second sameNames
  constructor
  · intro rules
    apply Catalogue.select_congr
    simpa only [mem_namesOf_iff] using sameNames
  · intro workspace given target
    rw [analyzerFor_snd_eq, analyzerFor_snd_eq]
    simp only [rulesFor_running_congr target sameNames]
    rfl

theorem rules_chosen_by_names_sample :
    (∀ name, HasName " TL001 ,x" name ↔ HasName "x,,TL001, TL001" name) ∧
      Catalogue.select Catalogue.all (namesOf "x,,TL001, TL001") = Catalogue.all ∧
      Catalogue.select Catalogue.all (namesOf " TL001 ,x") =
        Catalogue.select Catalogue.all (namesOf "x,,TL001, TL001") ∧
      (analyzerFor strictWorkspace none (inputTarget.running " TL001 ,x")).2 =
        (analyzerFor strictWorkspace none (inputTarget.running "x,,TL001, TL001")).2 ∧
      TrailingSpaces.rule {} ∈ Catalogue.select Catalogue.all ["no-tabs", "tL001"] ∧
      .unknownRule "x" ∈
        (analyzerFor strictWorkspace none (inputTarget.running " TL001 ,x")).1 := by
  obtain ⟨lawful, congruent, -, -, runs⟩ := rules_chosen_by_names
  have firstNames : namesOf " TL001 ,x" = ["TL001", "x"] := by cbv
  have secondNames : namesOf "x,,TL001, TL001" = ["x", "TL001", "TL001"] := by cbv
  have sameNames : ∀ name, HasName " TL001 ,x" name ↔ HasName "x,,TL001, TL001" name := by
    intro name
    rw [← mem_namesOf_iff, ← mem_namesOf_iff, firstNames, secondNames]
    simp [or_comm]
  have isCode : IsCaseVariant TrailingSpaces.code "TL001" := (isCaseVariant_iff _ _).mpr rfl
  have recased : IsCaseVariant "TL001" "tL001" := (isCaseVariant_iff _ _).mpr (by cbv)
  have chosen : TrailingSpaces.rule {} ∈ Catalogue.select Catalogue.all ["no-tabs", "TL001"] :=
    Catalogue.mem_select_iff.mpr ⟨List.mem_cons_self, "TL001", by simp, Or.inr isCode⟩
  have choosesAll : Catalogue.select Catalogue.all (namesOf "x,,TL001, TL001") = Catalogue.all := by
    rw [secondNames, Catalogue.select, List.filter_eq_self]
    intro rule member
    obtain rfl := List.mem_singleton.mp member
    cbv
  refine ⟨sameNames, choosesAll, (congruent _ _ sameNames).1 _, (congruent _ _ sameNames).2 _ _ _,
    ?_, ?_⟩
  · exact (lawful _).recase ["no-tabs"] "TL001" "tL001" [] _ chosen isCode recased
  · refine ((runs _ _ _ _).warnings _ [TrailingSpaces.rule {}] configFor_inputTarget rfl "x").mpr
      ⟨?_, by cbv⟩
    rw [← mem_namesOf_iff, firstNames]
    simp

end CommandLine

end TidyLines
