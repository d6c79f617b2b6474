import TidyLines.Text

/-!
# Classes of horizontal white space

Which characters count as white space at the end of a line.  The Unicode class holds every
character with the property `White_Space` that does not itself break a line.
-/

namespace TidyLines

/-- A class of characters that are white space inside a line. -/
inductive Whitespace where
  | ascii
  /-- Every white space of Unicode that breaks no line. -/
  | unicode
  deriving DecidableEq, Repr

namespace Whitespace

/-- The characters with the Unicode property `White_Space`. -/
def isUnicodeSpace (character : Char) : Bool :=
  let code := character.toNat
  (0x9 ≤ code && code ≤ 0xD) || code == 0x20 || code == 0x85 || code == 0xA0 ||
  code == 0x1680 || (0x2000 ≤ code && code ≤ 0x200A) || code == 0x2028 || code == 0x2029 ||
  code == 0x202F || code == 0x205F || code == 0x3000

/-- The white space that Unicode lets end a line: line feed, vertical tab, form feed, carriage
return, next line, line separator and paragraph separator. -/
def isLineBreak (character : Char) : Bool :=
  let code := character.toNat
  (0xA ≤ code && code ≤ 0xD) || code == 0x85 || code == 0x2028 || code == 0x2029

/-- Whether a class has a character. -/
def contains : Whitespace → Char → Bool
  | ascii, character => character == ' ' || character == '\t'
  | unicode, character => isUnicodeSpace character && !isLineBreak character

/-- No class has the line feed. -/
@[simp] theorem contains_lineFeed (whitespace : Whitespace) :
    whitespace.contains '\n' = false := by
  cases whitespace <;> decide

/-- No class has the carriage return. -/
@[simp] theorem contains_carriageReturn (whitespace : Whitespace) :
    whitespace.contains '\r' = false := by
  cases whitespace <;> decide

/-- The name under which a class is configured. -/
def name : Whitespace → String
  | ascii => "ascii"
  | unicode => "unicode"

/-- A name that no class has. -/
structure UnknownName where
  given : String
  deriving DecidableEq, Repr

/-- Says which names there are and which one was given. -/
def UnknownName.message (unknown : UnknownName) : String :=
  "expected \"ascii\" or \"unicode\", got \"" ++ unknown.given ++ "\""

/-- The class with a name, which is matched exactly. -/
def ofName (given : String) : Except UnknownName Whitespace :=
  if given = "ascii" then .ok ascii
  else if given = "unicode" then .ok unicode
  else .error ⟨given⟩

@[simp] theorem ofName_name (whitespace : Whitespace) :
    ofName whitespace.name = .ok whitespace := by
  cases whitespace <;> simp [ofName, name]

end Whitespace
end TidyLines
