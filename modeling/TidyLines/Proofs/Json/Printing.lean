import Mathlib.Data.List.TakeWhile
import TidyLines.Json.Parser
import TidyLines.Proofs.Json.Spelling

/-!
# Reading what was printed

Both texts of a value spell the same tokens, and a builder makes the value from them again.  So a
value is read back from each of its texts (`Json.Writable.parse?_text`), if its strings are texts
and its numbers are spelled as JSON has it (`Json.Writable`).
-/

namespace TidyLines.Json

/-- A value whose texts are JSON: strings and names stand for texts, and numbers are numbers. -/
inductive Writable : Json → Prop where
  | null : Writable .null
  | bool (value : Bool) : Writable (.bool value)
  | number {numeral : Text} (isNumber : Token.isNumber numeral = true) : Writable (.number numeral)
  | string (text : Text) : Writable (.string (some text))
  | array {items : List Json} (writable : ∀ item ∈ items, Writable item) : Writable (.array items)
  | object {members : List (Option Text × Json)}
      (named : ∀ member ∈ members, member.1.isSome)
      (writable : ∀ member ∈ members, Writable member.2) : Writable (.object members)

/-- The ways to lay out a value as a text. -/
inductive Layout where
  | compact
  | indented
  deriving DecidableEq, Repr

/-- The text of a value in a layout. -/
def Layout.text : Layout → Json → Text
  | compact, value => value.compact
  | indented, value => value.indented

mutual

/-- The tokens of the texts of a value. -/
def tokens : Json → List Token
  | .null => [.leaf .null]
  | .bool value => [.leaf (.bool value)]
  | .number numeral => [.leaf (.number numeral)]
  | .string text => [.quoted text]
  | .array items => .openArray :: ([Token.comma].intercalate (itemTokens items) ++ [.closeArray])
  | .object members =>
    .openObject :: ([Token.comma].intercalate (memberTokens members) ++ [.closeObject])

/-- The tokens of each item of an array. -/
def itemTokens : List Json → List (List Token)
  | [] => []
  | item :: others => tokens item :: itemTokens others

/-- The tokens of each member of an object. -/
def memberTokens : List (Option Text × Json) → List (List Token)
  | [] => []
  | (name, value) :: others => (.quoted name :: .colon :: tokens value) :: memberTokens others

end

/-! ## Words -/

namespace Token

theorem isWordCharacter_of_isDigit {character : Char} (isDigit : character.isDigit = true) :
    isWordCharacter character = true := by
  simp [isWordCharacter, Char.isAlphanum, isDigit]

theorem areInside_of_dropWhile {word : Text}
    (areInside : ∀ character ∈ word.dropWhile Char.isDigit, isWordCharacter character = true) :
    ∀ character ∈ word, isWordCharacter character = true := by
  intro character member
  rw [← List.takeWhile_append_dropWhile (p := Char.isDigit) (l := word), List.mem_append] at member
  rcases member with isDigit | behind
  · exact isWordCharacter_of_isDigit (List.mem_takeWhile_imp isDigit)
  · exact areInside character behind

theorem areInside_of_isExponent {word : Text} (isExponent : isExponent word = true) :
    ∀ character ∈ word, isWordCharacter character = true := by
  have ofDigits {digits : Text} (areDigits : digits.all Char.isDigit = true) :
      ∀ character ∈ digits, isWordCharacter character = true :=
    fun character member => isWordCharacter_of_isDigit (List.all_eq_true.mp areDigits _ member)
  cases word with
  | nil => simp
  | cons mark rest =>
      simp only [Token.isExponent, Bool.and_eq_true, Bool.or_eq_true, beq_iff_eq] at isExponent
      obtain ⟨⟨isMark, -⟩, areDigits⟩ := isExponent
      have markInside : isWordCharacter mark = true := by
        rcases isMark with rfl | rfl <;> rfl
      have restInside : ∀ character ∈ rest, isWordCharacter character = true := by
        split at areDigits
        next => exact List.forall_mem_cons.mpr ⟨rfl, ofDigits areDigits⟩
        next => exact List.forall_mem_cons.mpr ⟨rfl, ofDigits areDigits⟩
        next => exact ofDigits areDigits
      exact List.forall_mem_cons.mpr ⟨markInside, restInside⟩

theorem areInside_of_isFraction {word : Text} (isFraction : isFraction word = true) :
    ∀ character ∈ word, isWordCharacter character = true := by
  unfold Token.isFraction at isFraction
  split at isFraction
  next digit rest =>
    obtain ⟨isDigit, isExponent⟩ := Bool.and_eq_true_iff.mp isFraction
    have restInside := areInside_of_dropWhile (areInside_of_isExponent isExponent)
    exact List.forall_mem_cons.mpr ⟨rfl,
      List.forall_mem_cons.mpr ⟨isWordCharacter_of_isDigit isDigit, restInside⟩⟩
  next => exact areInside_of_isExponent isFraction

theorem areInside_of_isUnsigned {word : Text} (isUnsigned : isUnsigned word = true) :
    ∀ character ∈ word, isWordCharacter character = true := by
  unfold Token.isUnsigned at isUnsigned
  split at isUnsigned
  next rest => exact List.forall_mem_cons.mpr ⟨rfl, areInside_of_isFraction isUnsigned⟩
  next digit rest _ =>
    obtain ⟨isDigit, isFraction⟩ := Bool.and_eq_true_iff.mp isUnsigned
    have restInside := areInside_of_dropWhile (areInside_of_isFraction isFraction)
    exact List.forall_mem_cons.mpr ⟨isWordCharacter_of_isDigit isDigit, restInside⟩
  next => cases isUnsigned

theorem areInside_of_isNumber {word : Text} (isNumber : isNumber word = true) :
    ∀ character ∈ word, isWordCharacter character = true := by
  unfold Token.isNumber at isNumber
  split at isNumber
  next rest => exact List.forall_mem_cons.mpr ⟨rfl, areInside_of_isUnsigned isNumber⟩
  next => exact areInside_of_isUnsigned isNumber

theorem spells_number {numeral : Text} (isNumber : isNumber numeral = true) :
    Spells numeral [.leaf (.number numeral)] := by
  have means : ofWord? numeral = some (.leaf (.number numeral)) := by
    have notNull : numeral ≠ "null".toList := by rintro rfl; exact absurd isNumber (by decide)
    have notTrue : numeral ≠ "true".toList := by rintro rfl; exact absurd isNumber (by decide)
    have notFalse : numeral ≠ "false".toList := by rintro rfl; exact absurd isNumber (by decide)
    rw [ofWord?, if_neg notNull, if_neg notTrue, if_neg notFalse, if_pos isNumber]
  refine spells_word ?_ (areInside_of_isNumber isNumber) means
  rintro rfl
  cases isNumber

/-- A number without a sign, a fraction and an exponent is its digits. -/
theorem isNumber_ofNat (number : Nat) : isNumber (Text.ofNat number) = true := by
  obtain ⟨digit, rest, written, leading⟩ := Text.exists_ofNat_eq number
  have areDigits : ∀ character ∈ digit :: rest, character.isDigit = true := by
    rw [← written]
    exact fun _ => Text.isDigit_of_mem_ofNat
  have isDigit := areDigits digit List.mem_cons_self
  have nothingLeft : rest.dropWhile Char.isDigit = [] :=
    List.dropWhile_eq_nil_iff.mpr fun character member =>
      areDigits character (List.mem_cons_of_mem _ member)
  have notSign : digit ≠ '-' := by
    rintro rfl
    cases isDigit
  have isUnsigned : Token.isUnsigned (digit :: rest) = true := by
    by_cases isZero : digit = '0'
    · rw [isZero, (leading isZero).2]
      rfl
    · simp [Token.isUnsigned, isDigit, nothingLeft, isFraction, isExponent]
  rw [written, isNumber]
  · exact isUnsigned
  · simp [notSign]

/-! ## Texts -/

/-- Parts with commas and blanks between them spell their tokens with commas between them. -/
theorem spells_separate {blanks : Text}
    (areBlanks : ∀ character ∈ blanks, isBlank character = true) {parts : List Text}
    {tokens : List (List Token)} (spelled : List.Forall₂ Spells parts tokens) :
    Spells (separate (',' :: blanks) parts) ([.comma].intercalate tokens) := by
  rw [separate]
  induction spelled with
  | nil => exact spells_nil
  | @cons part own parts others spells rest ih =>
      cases rest with
      | nil =>
          rw [List.intercalate_singleton, List.intercalate_singleton]
          exact spells
      | cons _ _ =>
          rw [List.intercalate_cons_cons, List.intercalate_cons_cons, List.append_assoc,
            List.append_assoc]
          exact spells.append (.sign_cons rfl (.blanks_append areBlanks ih)) (endsWord_cons rfl _)

theorem spells_compact {opening closing : Char} {openToken closeToken : Token}
    (opens : ofSign? opening = some openToken) (closes : ofSign? closing = some closeToken)
    (endsWord : isWordCharacter closing = false) {parts : List Text} {tokens : List (List Token)}
    (spelled : List.Forall₂ Spells parts tokens) :
    Spells (opening :: (separate [','] parts ++ [closing]))
      (openToken :: ([.comma].intercalate tokens ++ [closeToken])) := by
  have inner := @spells_separate [] (by simp) _ _ spelled
  exact .sign_cons opens (inner.append (.sign_cons closes spells_nil) (endsWord_cons endsWord _))

theorem isBlank_of_mem_newLine {level : Nat} {character : Char}
    (member : character ∈ newLine level) : isBlank character = true := by
  rcases List.mem_cons.mp member with rfl | isSpace
  · rfl
  · rw [List.eq_of_mem_replicate isSpace]
    rfl

theorem spells_block {opening closing : Char} {openToken closeToken : Token}
    (opens : ofSign? opening = some openToken) (closes : ofSign? closing = some closeToken)
    (level : Nat) {parts : List Text} {tokens : List (List Token)}
    (spelled : List.Forall₂ Spells parts tokens) :
    Spells (block opening closing level parts)
      (openToken :: ([.comma].intercalate tokens ++ [closeToken])) := by
  have closed : Spells [closing] [closeToken] := .sign_cons closes spells_nil
  rw [block]
  split
  next noPart =>
    obtain rfl := List.isEmpty_iff.mp noPart
    cases spelled
    exact .sign_cons opens closed
  next =>
    rw [List.append_assoc, List.append_assoc]
    refine .sign_cons opens (.blanks_append (fun _ => isBlank_of_mem_newLine) ?_)
    exact (spells_separate (fun _ => isBlank_of_mem_newLine) spelled).append
      (.blanks_append (fun _ => isBlank_of_mem_newLine) closed) (endsWord_cons rfl _)

end Token

open Token

theorem spells_itemTokens {print : Json → Text} {items : List Json}
    (spelled : ∀ item ∈ items, Spells (print item) item.tokens) :
    List.Forall₂ Spells (items.map print) (itemTokens items) := by
  induction items with
  | nil => exact .nil
  | cons item items ih =>
      exact .cons (spelled item List.mem_cons_self)
        (ih fun other member => spelled other (List.mem_cons_of_mem _ member))

/-- A member is printed as its name, a colon, perhaps blanks, and its value. -/
theorem spells_memberTokens {print : Json → Text} {blanks : Text}
    (areBlanks : ∀ character ∈ blanks, isBlank character = true)
    {members : List (Option Text × Json)} (named : ∀ member ∈ members, member.1.isSome)
    (spelled : ∀ member ∈ members, Spells (print member.2) member.2.tokens) :
    List.Forall₂ Spells
      (members.map fun member => quoteOptional member.1 ++ ':' :: (blanks ++ print member.2))
      (memberTokens members) := by
  induction members with
  | nil => exact .nil
  | cons member members ih =>
      obtain ⟨name, value⟩ := member
      obtain ⟨text, rfl⟩ := Option.isSome_iff_exists.mp (named (name, value) List.mem_cons_self)
      refine .cons ?_ (ih (fun other member => named other (List.mem_cons_of_mem _ member))
        fun other member => spelled other (List.mem_cons_of_mem _ member))
      have ownValue := spelled (some text, value) List.mem_cons_self
      exact Spells.quote_append text (.sign_cons rfl (.blanks_append areBlanks ownValue))

theorem compactItems_eq_map (items : List Json) : compactItems items = items.map compact := by
  induction items with
  | nil => rfl
  | cons item items ih => rw [compactItems, ih, List.map_cons]

theorem compactMembers_eq_map (members : List (Option Text × Json)) :
    compactMembers members =
      members.map fun member => quoteOptional member.1 ++ ':' :: ([] ++ compact member.2) := by
  induction members with
  | nil => rfl
  | cons member members ih => rw [compactMembers, ih, List.map_cons, List.nil_append]

theorem indentedItems_eq_map (level : Nat) (items : List Json) :
    indentedItems level items = items.map (indentedAt level) := by
  induction items with
  | nil => rfl
  | cons item items ih => rw [indentedItems, ih, List.map_cons]

theorem indentedMembers_eq_map (level : Nat) (members : List (Option Text × Json)) :
    indentedMembers level members = members.map fun member =>
      quoteOptional member.1 ++ ':' :: ([' '] ++ indentedAt level member.2) := by
  induction members with
  | nil => rfl
  | cons member members ih => rw [indentedMembers, ih, List.map_cons, List.singleton_append]

theorem spells_null : Spells "null".toList [.leaf .null] :=
  spells_word (by decide) (List.all_eq_true.mp (by decide)) rfl

theorem spells_bool (value : Bool) :
    Spells (if value then "true" else "false").toList [.leaf (.bool value)] := by
  cases value <;> exact spells_word (by decide) (List.all_eq_true.mp (by decide)) rfl

theorem spells_quoteOptional (text : Text) :
    Spells (quoteOptional (some text)) [.quoted (some text)] := by
  have spells := Spells.quote_append text spells_nil
  rwa [List.append_nil] at spells

theorem Writable.spells_compact {value : Json} (writable : value.Writable) :
    Spells value.compact value.tokens := by
  induction writable with
  | null => exact spells_null
  | bool value => exact spells_bool value
  | number isNumber => exact spells_number isNumber
  | string text => exact spells_quoteOptional text
  | array _ ih =>
      rw [compact, compactItems_eq_map]
      exact Token.spells_compact rfl rfl rfl (spells_itemTokens ih)
  | object named _ ih =>
      rw [compact, compactMembers_eq_map]
      exact Token.spells_compact rfl rfl rfl (spells_memberTokens (by simp) named ih)

theorem Writable.spells_indentedAt {value : Json} (writable : value.Writable) (level : Nat) :
    Spells (value.indentedAt level) value.tokens := by
  induction writable generalizing level with
  | null => exact spells_null
  | bool value => exact spells_bool value
  | number isNumber => exact spells_number isNumber
  | string text => exact spells_quoteOptional text
  | array _ ih =>
      rw [indentedAt, indentedItems_eq_map]
      exact spells_block rfl rfl level
        (spells_itemTokens fun item member => ih item member (level + 1))
  | object named _ ih =>
      rw [indentedAt, indentedMembers_eq_map]
      exact spells_block rfl rfl level (spells_memberTokens (by simp [isBlank]) named
        fun item member => ih item member (level + 1))

/-! ## Values -/

namespace Builder

/-- The value that a builder has made when it has taken all of some tokens. -/
def buildOn? (builder : Builder) (tokens : List Token) : Option Json :=
  (tokens.foldlM step builder).bind finish?

theorem buildOn?_cons_of_step {builder next : Builder} {token : Token}
    (takes : builder.step token = some next) (rest : List Token) :
    builder.buildOn? (token :: rest) = next.buildOn? rest := by
  rw [buildOn?, List.foldlM_cons, takes]
  rfl

theorem buildOn?_openArray (frames : List Frame) (rest : List Token) :
    buildOn? (.someValue frames) (.openArray :: rest) = buildOn? (.firstItem frames) rest := rfl

theorem buildOn?_openObject (frames : List Frame) (rest : List Token) :
    buildOn? (.someValue frames) (.openObject :: rest) = buildOn? (.firstName frames) rest := rfl

/-- Where a value is due, these tokens make it, whatever follows them. -/
def Builds (tokens : List Token) (value : Json) : Prop :=
  ∀ (frames : List Frame) (rest : List Token),
    buildOn? (.someValue frames) (tokens ++ rest) = (put value frames).buildOn? rest

theorem Builds.ofTokens?_eq {tokens : List Token} {value : Json} (builds : Builds tokens value) :
    ofTokens? tokens = some value := by
  have built := builds [] []
  rw [List.append_nil] at built
  exact built

theorem builds_singleton {token : Token} {value : Json}
    (takes : ∀ frames, takeValue frames token = some (put value frames)) :
    Builds [token] value := by
  intro frames rest
  have step : step (.someValue frames) token = some (put value frames) := takes frames
  exact buildOn?_cons_of_step step rest

/-- The tokens of a value do not begin as an empty array ends. -/
theorem Builds.exists_cons {tokens : List Token} {value : Json} (builds : Builds tokens value) :
    ∃ token others, tokens = token :: others ∧ token ≠ .closeArray := by
  have built := builds.ofTokens?_eq
  cases tokens with
  | nil => cases built
  | cons token others =>
      refine ⟨token, others, rfl, ?_⟩
      rintro rfl
      cases built

theorem step_firstItem {token : Token} (opens : token ≠ .closeArray) (frames : List Frame) :
    step (.firstItem frames) token = step (.someValue (.items [] :: frames)) token := by
  cases token <;> first | rfl | exact absurd rfl opens

/-- The first item of an array is built like the others. -/
theorem Builds.firstItem {tokens : List Token} {value : Json} (builds : Builds tokens value)
    (frames : List Frame) (rest : List Token) :
    buildOn? (.firstItem frames) (tokens ++ rest) =
      buildOn? (.someValue (.items [] :: frames)) (tokens ++ rest) := by
  obtain ⟨token, others, rfl, opens⟩ := builds.exists_cons
  rw [List.cons_append, buildOn?, buildOn?, List.foldlM_cons, List.foldlM_cons,
    step_firstItem opens]

theorem buildOn?_items {parts : List (List Token)} {items : List Json}
    (built : List.Forall₂ Builds parts items) (nonempty : items ≠ []) (reversed : List Json)
    (frames : List Frame) (rest : List Token) :
    buildOn? (.someValue (.items reversed :: frames))
        ([Token.comma].intercalate parts ++ .closeArray :: rest) =
      (put (.array (reversed.reverse ++ items)) frames).buildOn? rest := by
  -- The induction is on the items to come; `reversed` holds those that are built.
  induction built generalizing reversed with
  | nil => exact absurd rfl nonempty
  | @cons part item parts items builds others ih =>
      cases others with
      | nil =>
          rw [List.intercalate_singleton, builds, ← List.reverse_cons]
          rfl
      | cons _ _ =>
          rw [List.intercalate_cons_cons, List.append_assoc, List.append_assoc, builds]
          refine (ih (List.cons_ne_nil _ _) (item :: reversed)).trans ?_
          rw [List.reverse_cons, List.append_assoc, List.singleton_append]

theorem builds_array {parts : List (List Token)} {items : List Json}
    (built : List.Forall₂ Builds parts items) :
    Builds (.openArray :: ([Token.comma].intercalate parts ++ [.closeArray])) (.array items) := by
  intro frames rest
  rw [List.cons_append, List.append_assoc, buildOn?_openArray]
  cases built with
  | nil => rfl
  | @cons part item parts items builds others =>
      have whole := buildOn?_items (.cons builds others) (List.cons_ne_nil _ _) [] frames rest
      refine Eq.trans ?_ whole
      cases others with
      | nil =>
          rw [List.intercalate_singleton]
          exact builds.firstItem frames _
      | cons _ _ =>
          rw [List.intercalate_cons_cons, List.append_assoc, List.append_assoc, List.append_assoc,
            List.append_assoc]
          exact builds.firstItem frames _

/-- The tokens of a member of an object. -/
def BuildsMember (tokens : List Token) (member : Option Text × Json) : Prop :=
  ∃ own, tokens = .quoted member.1 :: .colon :: own ∧ Builds own member.2

theorem buildOn?_members {parts : List (List Token)} {members : List (Option Text × Json)}
    (built : List.Forall₂ BuildsMember parts members) (nonempty : members ≠ [])
    (reversed : List (Option Text × Json)) (frames : List Frame) (rest : List Token) :
    buildOn? (.nextName reversed frames)
        ([Token.comma].intercalate parts ++ .closeObject :: rest) =
      (put (.object (reversed.reverse ++ members)) frames).buildOn? rest := by
  induction built generalizing reversed with
  | nil => exact absurd rfl nonempty
  | @cons part member parts members builds others ih =>
      obtain ⟨own, rfl, builds⟩ := builds
      have ownRead (behind : List Token) :
          buildOn? (.nextName reversed frames)
              (.quoted member.1 :: .colon :: own ++ behind) =
            buildOn? (.afterMember (member :: reversed) frames) behind :=
        builds (.members reversed member.1 :: frames) behind
      cases others with
      | nil =>
          rw [List.intercalate_singleton, ownRead, ← List.reverse_cons]
          rfl
      | cons _ _ =>
          rw [List.intercalate_cons_cons, List.append_assoc, List.append_assoc, ownRead]
          refine (ih (List.cons_ne_nil _ _) (member :: reversed)).trans ?_
          rw [List.reverse_cons, List.append_assoc, List.singleton_append]

theorem builds_object {parts : List (List Token)} {members : List (Option Text × Json)}
    (built : List.Forall₂ BuildsMember parts members) :
    Builds (.openObject :: ([Token.comma].intercalate parts ++ [.closeObject]))
      (.object members) := by
  intro frames rest
  rw [List.cons_append, List.append_assoc, buildOn?_openObject]
  cases built with
  | nil => rfl
  | @cons part member parts members builds others =>
      have whole := buildOn?_members (.cons builds others) (List.cons_ne_nil _ _) [] frames rest
      refine Eq.trans ?_ whole
      obtain ⟨own, rfl, -⟩ := builds
      -- The first name is taken like the others.
      cases others with
      | nil => rfl
      | cons _ _ =>
          rw [List.intercalate_cons_cons]
          rfl

end Builder

open Builder

theorem forall₂_builds {items : List Json} (builds : ∀ item ∈ items, Builds item.tokens item) :
    List.Forall₂ Builds (itemTokens items) items := by
  induction items with
  | nil => exact .nil
  | cons item items ih =>
      exact .cons (builds item List.mem_cons_self)
        (ih fun other member => builds other (List.mem_cons_of_mem _ member))

theorem forall₂_buildsMember {members : List (Option Text × Json)}
    (builds : ∀ member ∈ members, Builds member.2.tokens member.2) :
    List.Forall₂ BuildsMember (memberTokens members) members := by
  induction members with
  | nil => exact .nil
  | cons member members ih =>
      exact .cons ⟨_, rfl, builds member List.mem_cons_self⟩
        (ih fun other isMember => builds other (List.mem_cons_of_mem _ isMember))

theorem Writable.builds_tokens {value : Json} (writable : value.Writable) :
    Builds value.tokens value := by
  induction writable with
  | null => exact builds_singleton fun _ => rfl
  | bool _ => exact builds_singleton fun _ => rfl
  | number _ => exact builds_singleton fun _ => rfl
  | string _ => exact builds_singleton fun _ => rfl
  | array _ ih => exact builds_array (forall₂_builds ih)
  | object _ _ ih => exact builds_object (forall₂_buildsMember ih)

/-- A value is read back from its texts. -/
theorem Writable.parse?_text {value : Json} (writable : value.Writable) (layout : Layout) :
    parse? (layout.text value) = some value := by
  have spells : Spells (layout.text value) value.tokens := by
    cases layout with
    | compact => exact writable.spells_compact
    | indented => exact writable.spells_indentedAt 0
  rw [parse?, spells.ofText?_eq]
  exact writable.builds_tokens.ofTokens?_eq

end TidyLines.Json
