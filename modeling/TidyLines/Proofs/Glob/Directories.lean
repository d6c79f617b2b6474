import Mathlib.Data.List.Infix
import TidyLines.Glob

/-!
# Patterns of directories

The most common pattern is a name between two pairs of stars, which stands for everything below the
directories of this name.  It can be read (`Glob.parse_directoryPattern`), and it matches a path
exactly when the name stands between two slashes, where the path is taken to start with one
(`Glob.accepts_directoryTokens_iff`).
-/

namespace TidyLines.Glob

/-- The pattern of everything below directories of a name. -/
def directoryPattern (name : Text) : Text := ['*', '*', '/'] ++ (name ++ ['/']) ++ ['*', '*']

/-- The parts of the pattern of everything below directories of a name. -/
def directoryTokens (name : Text) : List Token :=
  .anyDirectories :: ((name ++ ['/']).map .literal ++ [.anyDirectories])

/-- A character that stands for itself. -/
def IsLiteral (character : Char) : Prop :=
  character ≠ '?' ∧ character ≠ '*' ∧ character ≠ '['

instance (character : Char) : Decidable (IsLiteral character) :=
  inferInstanceAs (Decidable (_ ∧ _ ∧ _))

theorem isLiteral_of_all {name : Text} (all : name.all (fun character => IsLiteral character)) :
    ∀ character ∈ name, IsLiteral character := by
  simpa using all

/-! ## Reading -/

namespace Reader

/-- A reader after some characters that stand for themselves. -/
def afterLiterals (reader : Reader) (characters : Text) : Reader :=
  { reader with
    reversed := (characters.map .literal).reverse ++ reader.reversed
    position := reader.position + characters.length
    last := characters.getLast?.or reader.last }

theorem step_of_isLiteral {reader : Reader} (between : reader.place = .between)
    {character : Char} (isLiteral : IsLiteral character) :
    reader.step character = .ok (reader.afterLiterals [character]) := by
  obtain ⟨noQuestion, noStar, noBracket⟩ := isLiteral
  have begins : reader.begin character = reader.add (.literal character) := by
    rw [begin] <;> assumption
  rw [step, take, between]
  simp [begins, add, afterLiterals, bind, Except.bind, pure, Except.pure, between]

theorem foldlM_step_of_isLiteral {characters : Text}
    (literal : ∀ character ∈ characters, IsLiteral character) {reader : Reader}
    (between : reader.place = .between) :
    characters.foldlM step reader = .ok (reader.afterLiterals characters) := by
  induction characters generalizing reader with
  | nil => rfl
  | cons character others ih =>
      have isLiteral := literal character List.mem_cons_self
      have othersLiteral : ∀ other ∈ others, IsLiteral other :=
        fun other member => literal other (List.mem_cons_of_mem character member)
      have goesOn : others.foldlM step (reader.afterLiterals [character]) =
          .ok ((reader.afterLiterals [character]).afterLiterals others) :=
        ih othersLiteral between
      rw [List.foldlM_cons, step_of_isLiteral between isLiteral]
      simp only [bind, Except.bind, goesOn]
      simp [afterLiterals, Nat.add_assoc, Nat.add_comm 1, List.getLast?_cons]

end Reader

/-- The pattern of a name that stands for itself can be read. -/
theorem parse_directoryPattern {name : Text} (literal : ∀ character ∈ name, IsLiteral character) :
    parse (directoryPattern name) = .ok (directoryTokens name) := by
  have allLiteral : ∀ character ∈ name ++ ['/'], IsLiteral character := by
    intro character member
    rcases List.mem_append.mp member with inName | isSlash
    · exact literal character inName
    · obtain rfl := List.mem_singleton.mp isSlash
      decide
  rw [parse, directoryPattern, List.foldlM_append, List.foldlM_append]
  have start : ['*', '*', '/'].foldlM Reader.step {} =
      .ok ⟨[.anyDirectories], 3, .between, 0, none, some '/'⟩ := rfl
  rw [start]
  simp only [bind, Except.bind, Reader.foldlM_step_of_isLiteral allLiteral]
  -- The slash behind the name is what lets the second pair of stars stand alone.
  simp [Reader.afterLiterals, Reader.step, Reader.take, Reader.begin, Reader.enter, Reader.finish,
    Reader.startsAlone, Reader.addDirectories, Reader.add, directoryTokens, bind, Except.bind,
    pure, Except.pure]

/-! ## Matching -/

/-- Any path is below any directories. -/
theorem attempt_anyDirectories (rest : Text) : attempt [.anyDirectories] rest = .matched := by
  have after : ∀ rest : Text, tryAfter (· == '/') (attempt []) rest = .matched := by
    intro rest
    induction rest with
    | nil => rfl
    | cons character others ih =>
        rw [tryAfter, ih]
        cases others <;> simp [attempt]
  rw [attempt, tryRun, after]
  cases rest <;> rfl

/-- Where characters are asked for that stand for themselves, too short a path is exhausted. -/
theorem attempt_literals (characters rest : Text) :
    attempt (characters.map .literal ++ [.anyDirectories]) rest =
      if characters <+: rest then .matched
      else if rest <+: characters then .exhausted else .mismatch := by
  induction characters generalizing rest with
  | nil => simp [attempt_anyDirectories]
  | cons character others ih =>
      cases rest with
      | nil => rfl
      | cons first more =>
          simp only [List.map_cons, List.cons_append, attempt, ih, Token.admits,
            List.cons_prefix_cons]
          by_cases same : first = character
          · simp [same]
          · simp [same, Ne.symm same]

/-- Trying to go on after each slash finds the characters behind one of them.  An attempt may end
the search early, but only when the rest of the path is too short. -/
theorem tryAfter_literals_eq_matched_iff {characters : Text} (nonempty : characters ≠ [])
    (rest : Text) :
    tryAfter (· == '/') (attempt (characters.map .literal ++ [.anyDirectories])) rest =
        .matched ↔ ('/' :: characters) <:+: rest := by
  induction rest with
  | nil => simp [tryAfter, attempt_literals, nonempty]
  | cons first more ih =>
      rw [List.infix_cons_iff, List.cons_prefix_cons, tryAfter, attempt_literals, ← ih]
      by_cases slash : first = '/'
      · subst slash
        by_cases here : characters <+: more
        · simp [here]
        · by_cases tooShort : more <+: characters
          · have nowhere : ¬ ('/' :: characters) <:+: more := by
              intro somewhere
              have longer := somewhere.length_le
              have shorter := tooShort.length_le
              rw [List.length_cons] at longer
              omega
            simp [here, tooShort, ih, nowhere]
          · simp [here, tooShort]
      · simp [slash, Ne.symm slash]

/-- A pattern of directories matches a path in which the name stands between two slashes. -/
theorem accepts_directoryTokens_iff (name path : Text) :
    accepts (directoryTokens name) path = true ↔
      ('/' :: (name ++ ['/'])) <:+: ('/' :: path) := by
  have nonempty : name ++ ['/'] ≠ [] := List.append_ne_nil_of_right_ne_nil _ (List.cons_ne_nil _ _)
  -- Going on at once is going on after a slash at the start.
  rw [← tryAfter_literals_eq_matched_iff nonempty, tryAfter, if_pos (beq_self_eq_true '/'),
    accepts, beq_iff_eq, directoryTokens, attempt, tryRun]

/-! ## Directories on the way -/

section Segments

variable {name segment : Text} (noSlash : '/' ∉ name)

include noSlash

/-- Up to the first slash, texts are the same only if what stands before it is. -/
theorem append_slash_prefix_iff (noSlashIn : '/' ∉ segment) (rest : Text) :
    name ++ ['/'] <+: segment ++ '/' :: rest ↔ name = segment := by
  have front : ∀ {characters : Text}, '/' ∉ characters → ∀ more : Text,
      (characters ++ '/' :: more).takeWhile (· != '/') = characters := by
    intro characters free more
    rw [List.takeWhile_append_of_pos]
    · simp
    · intro character member
      simpa using ne_of_mem_of_not_mem member free
  constructor
  · rintro ⟨more, same⟩
    rw [List.append_assoc] at same
    have fronts := congrArg (List.takeWhile (· != '/')) same
    rwa [List.singleton_append, front noSlash, front noSlashIn] at fronts
  · rintro rfl
    exact ⟨rest, by simp⟩

omit noSlash in
/-- What starts with a slash does not start within characters that are none. -/
theorem slash_infix_append_iff (noSlashIn : '/' ∉ segment) (characters rest : Text) :
    ('/' :: characters) <:+: segment ++ rest ↔ ('/' :: characters) <:+: rest := by
  induction segment with
  | nil => rfl
  | cons first others ih =>
      obtain ⟨differs, free⟩ := not_or.mp (mt List.mem_cons.mpr noSlashIn)
      rw [List.cons_append, List.infix_cons_iff, List.cons_prefix_cons, ih free]
      simp [differs]

/-- A name stands between two slashes of a path exactly when it is one of the directories on the way
to its end. -/
theorem slashes_infix_iff_mem {segments : List Text} (nonempty : segments ≠ [])
    (noSlashes : ∀ segment ∈ segments, '/' ∉ segment) :
    ('/' :: (name ++ ['/'])) <:+: ('/' :: ['/'].intercalate segments) ↔
      name ∈ segments.dropLast := by
  induction segments with
  | nil => exact absurd rfl nonempty
  | cons first others ih =>
      obtain ⟨free, othersFree⟩ := List.forall_mem_cons.mp noSlashes
      cases others with
      | nil =>
          -- The path has one slash only.
          have nowhere : ¬ ('/' :: (name ++ ['/'])) <:+: ('/' :: first) := by
            intro somewhere
            have twice := somewhere.sublist.count_le '/'
            simp [List.count_eq_zero_of_not_mem free] at twice
          simpa [List.intercalate] using nowhere
      | cons second more =>
          rw [List.intercalate_cons_cons, List.append_assoc, List.singleton_append,
            List.infix_cons_iff, List.cons_prefix_cons, append_slash_prefix_iff noSlash free,
            slash_infix_append_iff free, ih (List.cons_ne_nil _ _) othersFree,
            List.dropLast_cons_cons, List.mem_cons]
          simp

end Segments

end TidyLines.Glob
