import TidyLines.Toml.Draft
import TidyLines.Toml.Moment
import TidyLines.Toml.Number
import TidyLines.Toml.Quoted

/-!
# Reading TOML documents

`Toml.parse?` reads a document of TOML 1.0.  Arrays and inline tables may be nested, and keys may be
dotted, to a bounded depth.
-/

namespace TidyLines.Toml

open Scanner

/-- The depth that the nesting of values and the length of dotted keys must stay below. -/
def depthBound : Nat := 80

/-- Whether a character may stand in a key without quotes. -/
def isBareKey (character : Char) : Bool :=
  character.isAlphanum || character == '-' || character == '_'

/-- Takes one part of a dotted key. -/
def simpleKey : Scanner String := do
  match ← peek with
  | some '"' => return String.ofList (← Quoted.key)
  | some '\'' => return String.ofList (← Quoted.key)
  | _ =>
    let word ← takeWhile isBareKey
    if word.isEmpty then failure else return String.ofList word

/-- Takes the parts of a dotted key after the first one, of which there are fewer than the given
number. -/
def keyRest : Nat → Scanner (List String)
  | 0 => failure
  | bound + 1 => do
    blanks
    if ← optionally ['.'] then
      blanks
      let key ← simpleKey
      return key :: (← keyRest bound)
    else return []

/-- Takes a dotted key with the blanks around it. -/
def dottedKey : Scanner (List String) := do
  blanks
  let first ← simpleKey
  return first :: (← keyRest (depthBound - 1))

/-- Splits the last part from a dotted key. -/
def splitLast? (keys : List String) : Option (List String × String) :=
  keys.getLast?.map (keys.dropLast, ·)

/-- Whether a character belongs to a value without quotes and brackets. -/
def isWordCharacter (character : Char) : Bool :=
  character.isAlphanum || character == '_' || character == '+' || character == '-' ||
  character == '.' || character == ':'

/-- The value that a word stands for. -/
def wordValue? (word : Text) : Option Value :=
  if word = "true".toList then some (.boolean true)
  else if word = "false".toList then some (.boolean false)
  else if Moment.isMoment word then some .datetime
  else if Number.isFloat word then some .float
  else (Number.integer? word).map Value.integer

/-- Takes a word and its value.  A date may be followed by a blank and a time. -/
def wordValue : Scanner Value := do
  let word ← takeWhile isWordCharacter
  let value ← (wordValue? word : Option Value)
  if Moment.isDate word then
    fun rest =>
      match rest with
      | ' ' :: digit :: rest =>
        if digit.isDigit then
          if Moment.isOffsetTime (digit :: rest.takeWhile isWordCharacter) then
            some (.datetime, rest.dropWhile isWordCharacter)
          else none
        else some (value, ' ' :: digit :: rest)
      | _ => some (value, rest)
  else return value

mutual

/-- Takes a value.  The fuel bounds the number of steps, the depth the nesting. -/
def value (fuel depth : Nat) : Scanner Value :=
  match fuel with
  | 0 => failure
  | fuel + 1 => do
    match ← peek with
    | some '"' => return .string (String.ofList (← Quoted.value))
    | some '\'' => return .string (String.ofList (← Quoted.value))
    | some '[' =>
      exactly ['[']
      if depth + 1 < depthBound then
        gap
        return .array (← items fuel (depth + 1))
      else failure
    | some '\x7b' =>
      exactly ['\x7b']
      if depth + 1 < depthBound then
        blanks
        if ← optionally ['\x7d'] then return .table .inline []
        else return .table .inline (Entries.finish .inline (← members fuel (depth + 1) []))
      else failure
    | _ => wordValue

/-- Takes the remaining items of an array and its end. -/
def items (fuel depth : Nat) : Scanner (List Value) :=
  match fuel with
  | 0 => failure
  | fuel + 1 => do
    if ← optionally [']'] then return []
    else
      let item ← value fuel depth
      gap
      if ← optionally [','] then
        gap
        return item :: (← items fuel depth)
      else
        exactly [']']
        return [item]

/-- Takes the remaining members of an inline table and its end. -/
def members (fuel depth : Nat) (entries : Entries) : Scanner Entries :=
  match fuel with
  | 0 => failure
  | fuel + 1 => do
    let keys ← dottedKey
    exactly ['=']
    blanks
    let value ← value fuel depth
    blanks
    let (way, key) ← (splitLast? keys : Option _)
    let entries ← (entries.addDotted way key value : Option Entries)
    if ← optionally [','] then members fuel depth entries
    else
      exactly ['\x7d']
      return entries

end

/-- A document that is being read. -/
structure Document where
  root : Entries := []
  /-- The keys of the header under which the next keys belong. -/
  header : List String := []

namespace Document

/-- Takes the line of a header. -/
def headerLine (document : Document) : Scanner Document := do
  exactly ['[']
  let isArray ← optionally ['[']
  let keys ← dottedKey
  exactly (if isArray then [']', ']'] else [']'])
  endOfLine
  let (way, key) ← (splitLast? keys : Option _)
  let opened := if isArray then Entries.openNext key else Entries.openTable key
  let root ← (document.root.changeAt way opened : Option Entries)
  return { root, header := keys }

/-- Takes the line or lines of a key and its value. -/
def keyLine (document : Document) : Scanner Document := do
  let keys ← dottedKey
  exactly ['=']
  blanks
  let value ← value ((← get).length + 1) 0
  endOfLine
  let (way, key) ← (splitLast? keys : Option _)
  let root ← (document.root.changeAt document.header (·.addDotted way key value) : Option Entries)
  return { document with root }

/-- Takes the next line or lines. -/
def step (document : Document) : Scanner Document := do
  blanks
  match ← peek with
  | none => return document
  | some '#' =>
    endOfLine
    return document
  | some '\n' =>
    newLine
    return document
  | some '\r' =>
    newLine
    return document
  | some '[' => document.headerLine
  | _ => document.keyLine

/-- Reads lines to the end of a text, with at most as many steps as the fuel. -/
def readAll : Nat → Document → Text → Option Document
  | 0, document, rest => if rest.isEmpty then some document else none
  | fuel + 1, document, rest =>
    if rest.isEmpty then some document
    else do
      let (document, rest) ← document.step rest
      readAll fuel document rest

end Document

/-- A text without a byte order mark at its start. -/
def dropMark : Text → Text
  | '\uFEFF' :: rest => rest
  | text => text

/-- Reads a document, which is a table. -/
def parse? (text : Text) : Option (List (String × Value)) := do
  let text := dropMark text
  let document ← Document.readAll text.length {} text
  return document.root.finish .block

end TidyLines.Toml
