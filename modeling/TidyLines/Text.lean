/-!
# Texts as lists of characters

A text is the list of its Unicode characters.  Positions in a text are counted in two units:
characters, by `List.length`, and bytes of its UTF-8 form, by `Text.byteLength`.  The module also
holds the one way in which this library shortens a text: `Text.dropTrailing` removes the longest
run of chosen characters from the end.
-/

namespace TidyLines

/-- A text is the list of its characters. -/
abbrev Text := List Char

namespace Text

/-- The number of bytes that a text takes in UTF-8. -/
def byteLength (text : Text) : Nat :=
  text.foldr (fun character size => character.utf8Size + size) 0

@[simp] theorem byteLength_nil : byteLength [] = 0 := rfl

@[simp] theorem byteLength_cons (character : Char) (rest : Text) :
    byteLength (character :: rest) = character.utf8Size + byteLength rest := rfl

@[simp] theorem byteLength_append (first second : Text) :
    byteLength (first ++ second) = byteLength first + byteLength second := by
  induction first with
  | nil => simp
  | cons character rest inductionHypothesis => simp [inductionHypothesis, Nat.add_assoc]

theorem byteLength_eq_zero_iff (text : Text) : byteLength text = 0 ↔ text = [] := by
  cases text with
  | nil => simp
  | cons character rest =>
    have positive : character.utf8Size ≠ 0 := Nat.ne_of_gt character.utf8Size_pos
    simp [positive]

/-- The characters of a text that start before a number of bytes. -/
def takeBytes (size : Nat) : Text → Text
  | [] => []
  | character :: rest =>
    if size = 0 then [] else character :: takeBytes (size - character.utf8Size) rest

/-- The characters of a text that do not start before a number of bytes. -/
def dropBytes (size : Nat) : Text → Text
  | [] => []
  | character :: rest =>
    if size = 0 then character :: rest else dropBytes (size - character.utf8Size) rest

@[simp] theorem takeBytes_zero (text : Text) : takeBytes 0 text = [] := by
  cases text <;> simp [takeBytes]

@[simp] theorem dropBytes_zero (text : Text) : dropBytes 0 text = text := by
  cases text <;> simp [dropBytes]

@[simp] theorem takeBytes_append_dropBytes (size : Nat) (text : Text) :
    takeBytes size text ++ dropBytes size text = text := by
  induction text generalizing size with
  | nil => rfl
  | cons character rest inductionHypothesis =>
    by_cases none : size = 0 <;> simp [takeBytes, dropBytes, none, inductionHypothesis]

/-- The bytes of the first of two texts end where that text ends. -/
theorem takeBytes_byteLength_append (first second : Text) :
    takeBytes (byteLength first) (first ++ second) = first := by
  induction first with
  | nil => simp
  | cons character rest inductionHypothesis =>
    have positive : character.utf8Size ≠ 0 := Nat.ne_of_gt character.utf8Size_pos
    simp [takeBytes, positive, inductionHypothesis]

/-- Behind the bytes of the first of two texts the second one starts. -/
theorem dropBytes_byteLength_append (first second : Text) :
    dropBytes (byteLength first) (first ++ second) = second := by
  have whole := takeBytes_append_dropBytes (byteLength first) (first ++ second)
  rw [takeBytes_byteLength_append] at whole
  exact List.append_cancel_left whole

/-- A text without its longest run of matching characters at the end. -/
def dropTrailing (matching : Char → Bool) (text : Text) : Text :=
  text.foldr (fun character kept =>
    if kept.isEmpty && matching character then [] else character :: kept) []

@[simp] theorem dropTrailing_nil (matching : Char → Bool) : dropTrailing matching [] = [] := rfl

theorem dropTrailing_cons (matching : Char → Bool) (character : Char) (rest : Text) :
    dropTrailing matching (character :: rest) =
      if (dropTrailing matching rest).isEmpty && matching character then []
      else character :: dropTrailing matching rest := rfl

/-- What is dropped is all matching, exactly when nothing is left of the text. -/
theorem dropTrailing_eq_nil_iff (matching : Char → Bool) (text : Text) :
    dropTrailing matching text = [] ↔ ∀ character ∈ text, matching character = true := by
  induction text with
  | nil => simp
  | cons character rest inductionHypothesis =>
    rw [dropTrailing_cons]
    by_cases empty : dropTrailing matching rest = []
    · simpa [empty] using fun _ => inductionHypothesis.mp empty
    · simp [empty, ← inductionHypothesis]

/-- The text of a file's bytes, if they are UTF-8. -/
def decode? (bytes : ByteArray) : Option Text :=
  (String.fromUTF8? bytes).map String.toList

/-- The UTF-8 bytes of a text. -/
def encode (text : Text) : ByteArray :=
  (String.ofList text).toUTF8

@[simp] theorem decode?_encode (text : Text) : decode? (encode text) = some text := by
  have valid : (String.ofList text).toByteArray.IsValidUTF8 := (String.ofList text).isValidUTF8
  rw [decode?, encode, String.fromUTF8?, String.toUTF8_eq_toByteArray, dif_pos valid]
  exact congrArg some String.toList_ofList

theorem encode_injective {first second : Text} (same : encode first = encode second) :
    first = second := by
  have decoded := congrArg decode? same
  rwa [decode?_encode, decode?_encode, Option.some.injEq] at decoded

/-- Bytes that are a text are the bytes of that text. -/
theorem encode_of_decode? {bytes : ByteArray} {text : Text} (decoded : decode? bytes = some text) :
    encode text = bytes := by
  obtain ⟨string, read, rfl⟩ := Option.map_eq_some_iff.mp decoded
  rw [String.fromUTF8?] at read
  split at read
  · obtain rfl := Option.some.inj read
    rw [encode, String.ofList_toList]
    rfl
  · cases read

/-- The bytes of a text are as many as were counted character by character. -/
theorem size_encode (text : Text) : (encode text).size = byteLength text := by
  rw [encode, String.toUTF8_eq_toByteArray, String.toByteArray_ofList]
  induction text with
  | nil => rfl
  | cons character rest inductionHypothesis =>
    rw [List.utf8Encode_cons, ByteArray.size_append, inductionHypothesis, byteLength_cons]
    simp [List.utf8Encode]

end Text
end TidyLines
