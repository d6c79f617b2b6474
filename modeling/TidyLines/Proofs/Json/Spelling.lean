import TidyLines.Json.Printer
import TidyLines.Json.Token
import TidyLines.Proofs.Text.Decimal

/-!
# Texts that spell tokens

A reader that stands between tokens reads a text as tokens whatever stands before it, and whatever
stands behind it if that does not go on with a word (`Token.Spells`).  Words, signs, blanks and
string literals are put together here; what spells the tokens of a whole value is made of them.
-/

namespace TidyLines.Json.Token

/-- The tokens that a reader has when it has read on to the end of a text. -/
def Reader.readOn? (reader : Reader) (text : Text) : Option (List Token) :=
  (text.foldlM Reader.step reader).bind Reader.finish?

theorem ofText?_eq_readOn? (text : Text) : ofText? text = Reader.readOn? {} text := rfl

theorem Reader.readOn?_cons (reader : Reader) (character : Char) (rest : Text) :
    reader.readOn? (character :: rest) =
      (reader.step character).bind fun next => next.readOn? rest := by
  rw [readOn?, List.foldlM_cons]
  exact Option.bind_assoc ..

theorem Reader.readOn?_cons_of_step {reader next : Reader} {character : Char}
    (step : reader.step character = some next) (rest : Text) :
    reader.readOn? (character :: rest) = next.readOn? rest := by
  rw [readOn?_cons, step, Option.bind_some]

/-- A text that does not go on with a word. -/
def EndsWord (text : Text) : Prop := ∀ character ∈ text.head?, isWordCharacter character = false

theorem endsWord_nil : EndsWord [] := by
  intro character isFirst
  cases isFirst

theorem endsWord_cons {character : Char} (outside : isWordCharacter character = false)
    (rest : Text) : EndsWord (character :: rest) := by
  rintro _ ⟨⟩
  exact outside

/-- A text is read as the given tokens between other tokens. -/
def Spells (text : Text) (tokens : List Token) : Prop :=
  ∀ (before : List Token) (rest : Text), EndsWord rest →
    Reader.readOn? ⟨before, .between⟩ (text ++ rest) =
      Reader.readOn? ⟨tokens.reverse ++ before, .between⟩ rest

theorem Spells.ofText?_eq {text : Text} {tokens : List Token} (spells : Spells text tokens) :
    ofText? text = some tokens := by
  have read := spells [] [] endsWord_nil
  rw [List.append_nil, List.append_nil] at read
  rw [ofText?_eq_readOn?]
  refine read.trans ?_
  exact congrArg some (List.reverse_reverse tokens)

theorem spells_nil : Spells [] [] := fun _ _ _ => rfl

theorem Spells.append {first second : Text} {firstTokens secondTokens : List Token}
    (spellsFirst : Spells first firstTokens) (spellsSecond : Spells second secondTokens)
    (apart : EndsWord second) : Spells (first ++ second) (firstTokens ++ secondTokens) := by
  intro before rest endsWord
  have behindFirst : EndsWord (second ++ rest) := by
    cases second with
    | nil => exact endsWord
    | cons character others => exact apart
  rw [List.append_assoc, spellsFirst _ _ behindFirst, spellsSecond _ _ endsWord,
    List.reverse_append, List.append_assoc]

/-! ## Signs and blanks -/

theorem Spells.sign_cons {sign : Char} {token : Token} (isSign : ofSign? sign = some token)
    {text : Text} {tokens : List Token} (spells : Spells text tokens) :
    Spells (sign :: text) (token :: tokens) := by
  intro before rest endsWord
  have step : Reader.step ⟨before, .between⟩ sign = some ⟨token :: before, .between⟩ := by
    unfold ofSign? at isSign
    split at isSign <;> cases isSign <;> rfl
  rw [List.cons_append, Reader.readOn?_cons_of_step step, spells _ _ endsWord,
    List.reverse_cons, List.append_assoc, List.singleton_append]

theorem Spells.blanks_append {blanks : Text}
    (areBlanks : ∀ character ∈ blanks, isBlank character = true) {text : Text}
    {tokens : List Token} (spells : Spells text tokens) : Spells (blanks ++ text) tokens := by
  intro before rest endsWord
  rw [List.append_assoc]
  induction blanks with
  | nil => exact spells before rest endsWord
  | cons blank blanks ih =>
      have step : Reader.step ⟨before, .between⟩ blank = some ⟨before, .between⟩ := by
        change Reader.start before blank = _
        rw [Reader.start, if_pos (areBlanks blank List.mem_cons_self)]
      rw [List.cons_append, Reader.readOn?_cons_of_step step]
      exact ih fun character member => areBlanks character (List.mem_cons_of_mem _ member)

/-! ## Words -/

theorem readOn?_of_word {word : Text} (areInside : ∀ character ∈ word, isWordCharacter character)
    (before : List Token) (start rest : Text) :
    Reader.readOn? ⟨before, .word start⟩ (word ++ rest) =
      Reader.readOn? ⟨before, .word (word.reverse ++ start)⟩ rest := by
  induction word generalizing start with
  | nil => rfl
  | cons character word ih =>
      have step : Reader.step ⟨before, .word start⟩ character =
          some ⟨before, .word (character :: start)⟩ := by
        simp [Reader.step, areInside character List.mem_cons_self]
      rw [List.cons_append, Reader.readOn?_cons_of_step step,
        ih fun other member => areInside other (List.mem_cons_of_mem _ member),
        List.reverse_cons, List.append_assoc, List.singleton_append]

/-- A word ends where something else begins, and at the end of the text. -/
theorem readOn?_of_word_ended {word : Text} {token : Token}
    (means : ofWord? word.reverse = some token) (before : List Token) {rest : Text}
    (endsWord : EndsWord rest) :
    Reader.readOn? ⟨before, .word word⟩ rest =
      Reader.readOn? ⟨token :: before, .between⟩ rest := by
  cases rest with
  | nil => simp [Reader.readOn?, Reader.finish?, means]
  | cons character rest =>
      have outside : isWordCharacter character = false := endsWord character rfl
      rw [Reader.readOn?_cons, Reader.readOn?_cons]
      simp [Reader.step, outside, means]

theorem isBlank_of_isWordCharacter {character : Char} (inside : isWordCharacter character) :
    isBlank character = false := by
  by_contra blank
  rw [Bool.not_eq_false] at blank
  simp only [isBlank, Bool.or_eq_true, beq_iff_eq] at blank
  rcases blank with ((rfl | rfl) | rfl) | rfl <;> exact absurd inside (by decide)

theorem spells_word {word : Text} {token : Token} (nonempty : word ≠ [])
    (areInside : ∀ character ∈ word, isWordCharacter character)
    (means : ofWord? word = some token) : Spells word [token] := by
  intro before rest endsWord
  obtain ⟨character, others, rfl⟩ := List.exists_cons_of_ne_nil nonempty
  have inside := areInside character List.mem_cons_self
  have notQuote : character ≠ '"' := by
    rintro rfl
    exact absurd inside (by decide)
  have step : Reader.step ⟨before, .between⟩ character =
      some ⟨before, .word [character]⟩ := by
    change Reader.start before character = _
    simp [Reader.start, isBlank_of_isWordCharacter inside, notQuote, inside]
  rw [List.cons_append, Reader.readOn?_cons_of_step step,
    readOn?_of_word fun other member => areInside other (List.mem_cons_of_mem _ member)]
  refine readOn?_of_word_ended ?_ before endsWord
  simpa using means

/-! ## String literals -/

theorem digitValue?_hexDigit {value : Nat} (small : value < 16) :
    Text.digitValue? (Text.hexDigit value) = some value := by
  revert value
  decide

theorem step_code {digit : Char} {meant : Nat} (means : Text.digitValue? digit = some meant)
    (before : List Token) (literal : Literal) (missing value : Nat) :
    Reader.step ⟨before, .code literal (missing + 2) value⟩ digit =
      some ⟨before, .code literal (missing + 1) (16 * value + meant)⟩ := by
  simp [Reader.step, means]

theorem step_last_of_code {digit : Char} {meant : Nat}
    (means : Text.digitValue? digit = some meant) (before : List Token) (literal : Literal)
    (value : Nat) :
    Reader.step ⟨before, .code literal 1 value⟩ digit =
      some ⟨before, .inside (literal.addCode (16 * value + meant))⟩ := by
  simp [Reader.step, means]

theorem addCode_of_isControl {character : Char} (isControl : character.toNat < 0x20)
    (reversed : Text) :
    Literal.addCode ⟨reversed, true, none⟩ character.toNat =
      ⟨character :: reversed, true, none⟩ := by
  have notFirst : Literal.isFirstHalf character.toNat = false := by
    simp only [Literal.isFirstHalf, Bool.and_eq_false_iff, decide_eq_false_iff_not]
    omega
  have notSecond : Literal.isSecondHalf character.toNat = false := by
    simp only [Literal.isSecondHalf, Bool.and_eq_false_iff, decide_eq_false_iff_not]
    omega
  simp [Literal.addCode, notFirst, notSecond, Literal.add]

/-- A control character is read back from the four digits of its code. -/
theorem readOn?_of_code {character : Char} (isControl : character.toNat < 0x20)
    (before : List Token) (reversed rest : Text) :
    Reader.readOn? ⟨before, .inside ⟨reversed, true, none⟩⟩
        ("\\u00".toList ++ [Text.hexDigit (character.toNat / 16),
          Text.hexDigit (character.toNat % 16)] ++ rest) =
      Reader.readOn? ⟨before, .inside ⟨character :: reversed, true, none⟩⟩ rest := by
  have high : Text.digitValue? (Text.hexDigit (character.toNat / 16)) =
      some (character.toNat / 16) := digitValue?_hexDigit (by omega)
  have low : Text.digitValue? (Text.hexDigit (character.toNat % 16)) =
      some (character.toNat % 16) := digitValue?_hexDigit (by omega)
  have code : 16 * (16 * (16 * (16 * 0 + 0) + 0) + character.toNat / 16) + character.toNat % 16 =
      character.toNat := by
    omega
  calc
    _ = Reader.readOn? ⟨before, .code ⟨reversed, true, none⟩ 2 (16 * (16 * 0 + 0) + 0)⟩
          (Text.hexDigit (character.toNat / 16) :: Text.hexDigit (character.toNat % 16) :: rest) :=
      rfl
    _ = _ := by
      rw [Reader.readOn?_cons_of_step (step_code high ..),
        Reader.readOn?_cons_of_step (step_last_of_code low ..), code,
        addCode_of_isControl isControl]

theorem readOn?_of_escape (character : Char) (before : List Token) (reversed rest : Text) :
    Reader.readOn? ⟨before, .inside ⟨reversed, true, none⟩⟩ (escape character ++ rest) =
      Reader.readOn? ⟨before, .inside ⟨character :: reversed, true, none⟩⟩ rest := by
  unfold escape
  split
  -- Seven characters have short escapes, which are read by computation; the rest is shown or coded.
  case h_8 notQuote notBackslash _ _ _ _ _ =>
    split
    next isControl => exact readOn?_of_code isControl before reversed rest
    next shown =>
      have step : Reader.step ⟨before, .inside ⟨reversed, true, none⟩⟩ character =
          some ⟨before, .inside ⟨character :: reversed, true, none⟩⟩ := by
        simp [Reader.step, show character ≠ '"' from notQuote,
          show character ≠ '\\' from notBackslash, shown, Literal.add]
      exact Reader.readOn?_cons_of_step step rest
  all_goals rfl

theorem readOn?_of_escapes (text : Text) (before : List Token) (reversed rest : Text) :
    Reader.readOn? ⟨before, .inside ⟨reversed, true, none⟩⟩ (text.flatMap escape ++ rest) =
      Reader.readOn? ⟨before, .inside ⟨text.reverse ++ reversed, true, none⟩⟩ rest := by
  induction text generalizing reversed with
  | nil => rfl
  | cons character text ih =>
      rw [List.flatMap_cons, List.append_assoc, readOn?_of_escape, ih, List.reverse_cons,
        List.append_assoc, List.singleton_append]

theorem Spells.quote_append (text : Text) {behind : Text} {tokens : List Token}
    (spells : Spells behind tokens) :
    Spells (quote text ++ behind) (.quoted (some text) :: tokens) := by
  intro before rest endsWord
  have opens : Reader.step ⟨before, .between⟩ '"' =
      some ⟨before, .inside ⟨[], true, none⟩⟩ := rfl
  have closes : Reader.step ⟨before, .inside ⟨text.reverse ++ [], true, none⟩⟩ '"' =
      some ⟨.quoted (some text) :: before, .between⟩ := by
    simp [Reader.step, Literal.text?]
  rw [quote, List.append_assoc, List.cons_append, Reader.readOn?_cons_of_step opens,
    List.append_assoc, readOn?_of_escapes, List.singleton_append,
    Reader.readOn?_cons_of_step closes, spells _ _ endsWord, List.reverse_cons,
    List.append_assoc, List.singleton_append]

end TidyLines.Json.Token
