import Mathlib.Data.List.Induction
import Mathlib.Data.String.Basic
import TidyLines.Proofs.FileTree.Rewriting
import TidyLines.Proofs.Path.Parent

/-!
# Ways through a tree

A path leads step by step from directory to directory, and links on the way are followed.  A way can
be gone on (`FileTree.walkTo_append`), does not need the segments that say nothing
(`FileTree.walkTo_append_skip`) and ends in a name where it ends at a file
(`FileTree.Connected.isName_of_walkTo_file`).  So names below a directory lead on behind every path
of the directory, and the path of a file leads to the file again when it is put together from its
parent and its name.
-/

namespace TidyLines

namespace FileTree

/-- A tree in which every entry stands in a directory, under a name that a directory can hold. -/
structure Connected (tree : FileTree) : Prop where
  parent_isDirectory : ∀ address ∈ tree.entries.map Prod.fst,
    tree.isDirectoryAt address.dropLast = true
  names_fit : ∀ address ∈ tree.entries.map Prod.fst, ∀ name ∈ address,
    name.utf8ByteSize ≤ nameBound

instance (tree : FileTree) : Decidable tree.Connected :=
  decidable_of_iff ((∀ address ∈ tree.entries.map Prod.fst,
        tree.isDirectoryAt address.dropLast = true) ∧
      ∀ address ∈ tree.entries.map Prod.fst, ∀ name ∈ address, name.utf8ByteSize ≤ nameBound)
    ⟨fun ⟨parents, fit⟩ => ⟨parents, fit⟩, fun ⟨parents, fit⟩ => ⟨parents, fit⟩⟩

variable {tree : FileTree} {address here : Address} {entry : Entry}

/-! ## Names -/

/-- Directories can hold all of the names. -/
def NamesFit (names : List String) : Prop := ∀ name ∈ names, name.utf8ByteSize ≤ nameBound

instance (names : List String) : Decidable (NamesFit names) :=
  inferInstanceAs (Decidable (∀ name ∈ names, name.utf8ByteSize ≤ nameBound))

theorem leadsThrough_cons (here : Address) (name : String) (others : List String) :
    tree.leadsThrough here (name :: others) =
      (tree.isDirectoryAt here && tree.leadsThrough (here ++ [name]) others) := by
  simp [leadsThrough, List.range_succ_eq_map, List.all_map, Function.comp_def]

/-- Names that lead from directory to directory lead to an entry that is no link, if they fit. -/
theorem walkTo_names_eq {names : List String} (areNames : ∀ name ∈ names, Path.IsName name)
    (through : tree.leadsThrough here names = true)
    (found : tree.get? (here ++ names) = some entry) (noLink : ∀ target, entry ≠ .link target)
    (writing : Bool) (links : Nat) :
    tree.walkTo writing links here names =
      if NamesFit names then .ok (here ++ names) else .error .nameTooLong := by
  induction names generalizing here with
  | nil => simp [walkTo, NamesFit]
  | cons name others ih =>
      obtain ⟨isName, othersNames⟩ := List.forall_mem_cons.mp areNames
      rw [leadsThrough_cons, Bool.and_eq_true] at through
      obtain ⟨isDirectory, onward⟩ := through
      rw [List.append_cons] at found
      have isNext : ∃ next, tree.get? (here ++ [name]) = some next ∧
          ∀ target, next ≠ .link target := by
        cases others with
        | nil => exact ⟨entry, by simpa using found, noLink⟩
        | cons other others =>
            rw [leadsThrough_cons, Bool.and_eq_true] at onward
            exact ⟨.directory, isDirectoryAt_iff.mp onward.1, by simp⟩
      obtain ⟨next, isThere, notLink⟩ := isNext
      have goesOn := ih othersNames onward found
      rw [walkTo, if_pos isDirectory, isName.isTrivial_eq_false, if_neg Bool.false_ne_true,
        if_neg isName.ne_dots, isThere]
      by_cases fits : name.utf8ByteSize ≤ nameBound
      · have restFits : NamesFit (name :: others) ↔ NamesFit others := by
          simp [NamesFit, fits]
        rw [if_neg (Nat.not_lt.mpr fits), List.append_cons here name others]
        simpa only [restFits] using goesOn
      · have notAll : ¬ NamesFit (name :: others) := by
          simp [NamesFit, fits]
        rw [if_pos (Nat.not_le.mp fits), if_neg notAll]

/-- In a tree without links, names lead to the address that they spell, if they lead anywhere. -/
theorem eq_append_of_walkTo {links : Nat} {names : List String}
    (noLink : ∀ place target, tree.get? place ≠ some (.link target))
    (areNames : ∀ name ∈ names, Path.IsName name)
    (leads : tree.walkTo false links here names = .ok address) : address = here ++ names := by
  fun_induction walkTo tree false links here names with
  | case1 => simpa using leads.symm
  | case2 links here step rest isDirectory isTrivial ih =>
      cases isTrivial.symm.trans (areNames step List.mem_cons_self).isTrivial_eq_false
  | case3 links here rest isDirectory notTrivial ih =>
      exact absurd rfl (areNames ".." List.mem_cons_self).ne_dots
  | case5 => contradiction
  | case8 here step rest isDirectory notTrivial notDots fits target found =>
      exact absurd found (noLink _ target)
  | case9 links here step rest isDirectory notTrivial notDots fits entry notLink found ih =>
      rw [ih (fun name member => areNames name (List.mem_cons_of_mem step member)) leads,
        List.append_assoc, List.singleton_append]
  | _ => cases leads

namespace Connected

variable (connected : tree.Connected)

include connected

/-- The directory above a directory is a directory, that of the root being the root itself. -/
theorem isDirectoryAt_dropLast (isDirectory : tree.isDirectoryAt address = true) :
    tree.isDirectoryAt address.dropLast = true := by
  by_cases atRoot : address = []
  · rw [atRoot] at isDirectory ⊢
    exact isDirectory
  · exact connected.parent_isDirectory address
      (mem_addresses_of_get? (isDirectoryAt_iff.mp isDirectory) atRoot)

/-- All that stands above an entry is directories. -/
theorem isDirectoryAt_of_append {below : List String}
    (found : tree.get? (address ++ below) = some entry) (nonempty : below ≠ []) :
    tree.isDirectoryAt address = true := by
  induction below using List.reverseRecOn generalizing entry with
  | nil => contradiction
  | append_singleton above last ih =>
      have listed := mem_addresses_of_get? found (by simp)
      have parent := connected.parent_isDirectory _ listed
      rw [← List.append_assoc, List.dropLast_concat] at parent
      by_cases direct : above = []
      · rwa [direct, List.append_nil] at parent
      · exact ih (isDirectoryAt_iff.mp parent) direct

theorem namesFit_of_get? {names : List String}
    (found : tree.get? (address ++ names) = some entry) : NamesFit names := by
  intro name member
  have inAddress := List.mem_append_right address member
  have below := List.ne_nil_of_mem inAddress
  exact connected.names_fit _ (mem_addresses_of_get? found below) name inAddress

theorem leadsThrough_of_get? {names : List String}
    (found : tree.get? (here ++ names) = some entry) :
    tree.leadsThrough here names = true := by
  rw [leadsThrough, List.all_eq_true]
  intro count within
  rw [← List.take_append_drop count names, ← List.append_assoc] at found
  refine connected.isDirectoryAt_of_append found ?_
  simpa using List.mem_range.mp within

/-- The names of an entry that is no link lead to it from any directory above it. -/
theorem walkTo_names {names : List String} (areNames : ∀ name ∈ names, Path.IsName name)
    (found : tree.get? (here ++ names) = some entry) (noLink : ∀ target, entry ≠ .link target)
    (links : Nat) : tree.walkTo false links here names = .ok (here ++ names) := by
  rw [walkTo_names_eq areNames (connected.leadsThrough_of_get? found) found noLink,
    if_pos (connected.namesFit_of_get? found)]

end Connected

/-! ## Ways put together -/

/-- A way that goes on goes on from where its front leads, with the links that are left. -/
theorem exists_walkTo_append {links : Nat} {middle : Address} {front : List String}
    (leads : tree.walkTo false links here front = .ok middle) :
    ∃ left, ∀ rest, tree.walkTo false links here (front ++ rest) =
      tree.walkTo false left middle rest := by
  fun_induction walkTo tree false links here front with
  | case1 links here =>
      obtain rfl := Except.ok.inj leads
      exact ⟨links, fun rest => rfl⟩
  | case5 => contradiction
  | case8 here step others isDirectory notTrivial notDots fits target found links ih =>
      -- The segments of a link come first, so that the rest is still what comes last.
      rw [dite_eq_ite] at ih
      obtain ⟨left, onward⟩ := ih leads
      refine ⟨left, fun rest => ?_⟩
      have goesOn := onward rest
      rw [List.append_assoc] at goesOn
      rw [List.cons_append, walkTo]
      simp [isDirectory, notTrivial, notDots, fits, found, goesOn]
  | case9 links here step others isDirectory notTrivial notDots fits entry noLink found ih =>
      obtain ⟨left, onward⟩ := ih leads
      refine ⟨left, fun rest => ?_⟩
      rw [List.cons_append, walkTo]
      cases entry with
      | link target => exact absurd rfl (noLink target)
      | file bytes => simp [isDirectory, notTrivial, notDots, fits, found, onward]
      | directory => simp [isDirectory, notTrivial, notDots, fits, found, onward]
  | case2 links here step others isDirectory isTrivial ih =>
      obtain ⟨left, onward⟩ := ih leads
      refine ⟨left, fun rest => ?_⟩
      rw [List.cons_append, walkTo, if_pos isDirectory, if_pos isTrivial, onward]
  | case3 links here others isDirectory notTrivial ih =>
      obtain ⟨left, onward⟩ := ih leads
      refine ⟨left, fun rest => ?_⟩
      rw [List.cons_append, walkTo, if_pos isDirectory, if_neg notTrivial, if_pos rfl, onward]
  | _ => cases leads

/-- A way can be gone on from where it ends. -/
theorem walkTo_append {links : Nat} {middle : Address} {front rest : List String}
    (leads : tree.walkTo false links here front = .ok middle)
    (onward : ∀ links, tree.walkTo false links middle rest = .ok address) :
    tree.walkTo false links here (front ++ rest) = .ok address := by
  obtain ⟨left, goesOn⟩ := exists_walkTo_append leads
  rw [goesOn, onward]

/-- Segments that say nothing can be left out in front of another one. -/
theorem walkTo_skip {skipped : List String}
    (allTrivial : ∀ segment ∈ skipped, Path.isTrivial segment = true) (next : String)
    (rest : List String) (links : Nat) :
    tree.walkTo false links here (skipped ++ next :: rest) =
      tree.walkTo false links here (next :: rest) := by
  induction skipped with
  | nil => rfl
  | cons segment others ih =>
      obtain ⟨isTrivial, othersTrivial⟩ := List.forall_mem_cons.mp allTrivial
      rw [List.cons_append, walkTo, if_pos isTrivial, ih othersTrivial]
      by_cases isDirectory : tree.isDirectoryAt here = true
      · rw [if_pos isDirectory]
      · rw [if_neg isDirectory, walkTo, if_neg isDirectory]

/-- Segments that say nothing can be left out further on, too. -/
theorem walkTo_append_skip {skipped : List String}
    (allTrivial : ∀ segment ∈ skipped, Path.isTrivial segment = true) (front : List String)
    (next : String) (rest : List String) (links : Nat) :
    tree.walkTo false links here (front ++ (skipped ++ next :: rest)) =
      tree.walkTo false links here (front ++ next :: rest) := by
  fun_induction walkTo tree false links here front with
  | case1 links here => exact walkTo_skip allTrivial next rest links
  | case8 here step others isDirectory notTrivial notDots fits target found links ih =>
      rw [dite_eq_ite, List.append_assoc, List.append_assoc] at ih
      rw [List.cons_append, List.cons_append, walkTo, walkTo]
      simp [isDirectory, notTrivial, notDots, fits, found, ih]
  | case9 links here step others isDirectory notTrivial notDots fits entry noLink found ih =>
      rw [List.cons_append, List.cons_append, walkTo, walkTo]
      simp [isDirectory, notTrivial, notDots, fits, found, ih]
  | _ =>
      rw [List.cons_append, List.cons_append, walkTo, walkTo]
      simp [*]

private theorem isName_last_cons {step : String} {others : List String}
    (alone : others = [] → Path.IsName step) (behind : ∀ name ∈ others.getLast?, Path.IsName name) :
    ∀ name ∈ (step :: others).getLast?, Path.IsName name := by
  cases others with
  | nil => simpa using alone rfl
  | cons other others => simpa using behind

/-- A way that ends at a file ends in a name. -/
theorem Connected.isName_of_walkTo_file (connected : tree.Connected)
    (wellFormed : tree.WellFormed) {links : Nat} {steps : List String}
    (leads : tree.walkTo false links here steps = .ok address) {bytes : ByteArray}
    (atFile : tree.get? address = some (.file bytes)) :
    ∀ name ∈ steps.getLast?, Path.IsName name := by
  have noDirectory : tree.isDirectoryAt address ≠ true := by
    rw [Ne, isDirectoryAt_iff, atFile]
    simp
  fun_induction walkTo tree false links here steps with
  | case1 => simp
  -- A way that ends in a dot or in two dots ends at a directory.
  | case2 links here step others isDirectory isTrivial ih =>
      refine isName_last_cons ?_ (ih leads)
      rintro rfl
      rw [walkTo, Except.ok.injEq] at leads
      exact absurd (leads ▸ isDirectory) noDirectory
  | case3 links here others isDirectory notTrivial ih =>
      refine isName_last_cons ?_ (ih leads)
      rintro rfl
      rw [walkTo, Except.ok.injEq] at leads
      exact absurd (leads ▸ connected.isDirectoryAt_dropLast isDirectory) noDirectory
  | case5 => contradiction
  | case8 here step others isDirectory notTrivial notDots fits target found links ih =>
      have isName := are_names_of_get? wellFormed found step (by simp)
      refine isName_last_cons (fun _ => isName) fun name isLast => ?_
      rw [dite_eq_ite] at ih
      refine ih leads name ?_
      rw [List.getLast?_append, Option.mem_def.mp isLast]
      rfl
  | case9 links here step others isDirectory notTrivial notDots fits entry noLink found ih =>
      have isName := are_names_of_get? wellFormed found step (by simp)
      exact isName_last_cons (fun _ => isName) (ih leads)
  | _ => cases leads

/-! ## Paths that are accepted -/

theorem resolve_eq_ok_iff {directory : Address} {path : Path} :
    tree.resolve directory path = .ok address ↔ checkSpelling path = .ok () ∧
      tree.walkTo false linkBudget (startOf directory path) path.segments = .ok address := by
  rw [resolve]
  cases checkSpelling path <;> simp [bind, Except.bind]

theorem checkSpelling_eq_ok_iff {path : Path} :
    checkSpelling path = .ok () ↔
      path ≠ .empty ∧ '\x00' ∉ path.text.toList ∧ path.text.utf8ByteSize < pathBound := by
  rw [checkSpelling, String.contains_char_eq]
  split
  next isEmpty => simp [isEmpty]
  next notEmpty =>
    split
    next nul => simp_all
    next noNul => split <;> simp_all

/-- A path of fewer segments is accepted, too. -/
theorem checkSpelling_of_sublist {path other : Path} (accepted : checkSpelling path = .ok ())
    (nonempty : other ≠ .empty) (sublist : other.segments.Sublist path.segments) :
    checkSpelling other = .ok () := by
  obtain ⟨-, noNul, fits⟩ := checkSpelling_eq_ok_iff.mp accepted
  have fewer := Path.toList_text_sublist sublist
  refine checkSpelling_eq_ok_iff.mpr ⟨nonempty, fun nul => noNul (fewer.subset nul), ?_⟩
  calc other.text.utf8ByteSize
    _ = String.utf8Len other.text.toList := (String.utf8Len_toList _).symm
    _ ≤ String.utf8Len path.text.toList := String.utf8Len_le_of_sublist fewer
    _ = path.text.utf8ByteSize := String.utf8Len_toList _
    _ < pathBound := fits

variable {directory : Address}

/-- Names that lead from a directory to a file lead there behind any path of the directory, as long
as the whole is accepted and the names fit. -/
theorem resolve_join_names {base : Path} {root : Address} {names : List String}
    (leads : tree.resolve directory base = .ok root) (nonempty : names ≠ [])
    (areNames : ∀ name ∈ names, Path.IsName name)
    (through : tree.leadsThrough root names = true) {bytes : ByteArray}
    (found : tree.get? (root ++ names) = some (.file bytes)) :
    tree.resolve directory (base.join ⟨names⟩) = (checkSpelling (base.join ⟨names⟩)).bind
      fun _ => if NamesFit names then .ok (root ++ names) else .error .nameTooLong := by
  obtain ⟨front, closing, spelling, closes, joined⟩ := base.exists_front
  obtain ⟨_, -, joins⟩ := base.exists_opens_join
  have sameStart : startOf directory (base.join ⟨names⟩) = startOf directory base := by
    rw [startOf, startOf, Path.isAbsolute_eq_of_anchor_eq (joins names nonempty areNames).1]
  have silent : ∀ segment ∈ closing, Path.isTrivial segment = true := by
    rcases closes with ⟨rfl, -⟩ | rfl <;> simp [Path.isTrivial]
  obtain ⟨left, onward⟩ := exists_walkTo_append (resolve_eq_ok_iff.mp leads).2
  have way := onward names
  rw [walkTo_names_eq areNames through found (by simp)] at way
  obtain ⟨name, others, rfl⟩ := List.exists_cons_of_ne_nil nonempty
  rw [spelling, List.append_assoc, walkTo_append_skip silent] at way
  rw [resolve, sameStart, joined _ areNames, way]
  rfl

namespace Connected

variable (connected : tree.Connected)

include connected

/-- The path of a file is put together again from its parent, and leads to the same place then. -/
theorem exists_parent_of_file (wellFormed : tree.WellFormed) {path : Path}
    (nonempty : path.segments ≠ []) (leads : tree.resolve directory path = .ok address)
    {bytes : ByteArray} (atFile : tree.get? address = some (.file bytes)) :
    ∃ base name, path.PutTogether base (path.segments.dropLast) name ∧
      tree.resolve directory (base.join ⟨[name]⟩) = .ok address := by
  obtain ⟨accepted, way⟩ := resolve_eq_ok_iff.mp leads
  have spelling := List.dropLast_append_getLast nonempty
  have isName := connected.isName_of_walkTo_file wellFormed way atFile
    (path.segments.getLast nonempty) (List.getLast?_eq_getLast_of_ne_nil nonempty)
  generalize path.segments.getLast nonempty = name at spelling isName
  obtain ⟨base, parts⟩ := Path.exists_parent spelling.symm isName
  refine ⟨base, name, parts, ?_⟩
  obtain ⟨kept, skipped, split, silent, joined⟩ := parts.exists_skipped
  have sameStart : startOf directory (base.join ⟨[name]⟩) = startOf directory path := by
    rw [startOf, startOf, Path.isAbsolute_eq_of_anchor_eq parts.anchor_eq]
  rw [split] at spelling
  rw [resolve_eq_ok_iff, sameStart, joined]
  refine ⟨checkSpelling_of_sublist accepted ?_ ?_, ?_⟩
  · intro isEmpty
    have lastEq := congrArg (fun path => path.segments.getLast?) isEmpty
    rw [List.getLast?_concat] at lastEq
    exact isName.ne_empty (Option.some.inj lastEq)
  · rw [← spelling]
    exact (List.sublist_append_left kept skipped).append_right [name]
  · rw [← spelling, List.append_assoc, walkTo_append_skip silent] at way
    exact way

/-- The parent of the path of a file leads to no file. -/
theorem isFile_parent_eq_false (wellFormed : tree.WellFormed) {path parent : Path}
    (leads : tree.resolve directory path = .ok address) {bytes : ByteArray}
    (atFile : tree.get? address = some (.file bytes)) (isParent : path.parent? = some parent)
    {place : Address} (parentLeads : tree.resolve directory parent = .ok place)
    {others : ByteArray} : tree.get? place ≠ some (.file others) := by
  intro atPlace
  have nonempty : path.segments ≠ [] := by
    intro blank
    have noPath : path = ⟨[]⟩ := by rw [← blank]
    simp [noPath, Path.parent?, Path.body, Path.anchor, Path.isAbsolute, Path.trimEnd] at isParent
  obtain ⟨base, name, parts, joinedLeads⟩ :=
    connected.exists_parent_of_file wellFormed nonempty leads atFile
  obtain rfl := Option.some.inj (isParent.symm.trans parts.parent?_eq)
  obtain ⟨kept, -, -, -, joinedEq⟩ := parts.exists_skipped
  have joinedWay := (resolve_eq_ok_iff.mp joinedLeads).2
  have isName : Path.IsName name := by
    refine connected.isName_of_walkTo_file wellFormed joinedWay atFile name ?_
    simp [joinedEq]
  obtain ⟨front, closing, spelling, closes, joined⟩ := parent.exists_front
  have parentWay := (resolve_eq_ok_iff.mp parentLeads).2
  have endsInName := connected.isName_of_walkTo_file wellFormed parentWay atPlace
  rcases closes with ⟨rfl, -⟩ | rfl
  · have sameStart : startOf directory (parent.join ⟨[name]⟩) = startOf directory parent := by
      obtain ⟨_, -, joins⟩ := parent.exists_opens_join
      have anchors := (joins [name] (List.cons_ne_nil name []) (by simpa using isName)).1
      rw [startOf, startOf, Path.isAbsolute_eq_of_anchor_eq anchors]
    rw [spelling, List.append_nil] at parentWay
    obtain ⟨left, onward⟩ := exists_walkTo_append parentWay
    rw [sameStart, joined [name] (by simpa using isName), onward, walkTo, isDirectoryAt,
      atPlace] at joinedWay
    cases joinedWay
  · exact (endsInName "" (by simp [spelling])).ne_empty rfl

end Connected

end FileTree
end TidyLines
