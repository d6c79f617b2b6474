import TidyLines.Text

/-!
# Numerals

Natural numbers as digits, in base ten and in other bases up to sixteen.
-/

namespace TidyLines.Text

/-- The digits of a number in base ten. -/
def ofNat (number : Nat) : Text := Nat.toDigits 10 number

/-- The value of a digit, with letters of either case above nine. -/
def digitValue? (character : Char) : Option Nat :=
  if character.isDigit then some (character.toNat - '0'.toNat)
  else if 'a' ≤ character && character ≤ 'f' then some (character.toNat - 'a'.toNat + 10)
  else if 'A' ≤ character && character ≤ 'F' then some (character.toNat - 'A'.toNat + 10)
  else none

/-- Whether a character is a digit of a base. -/
def isDigitOf (base : Nat) (character : Char) : Bool :=
  match digitValue? character with
  | some value => value < base
  | none => false

/-- The number that digits of a base stand for; other characters count as zero. -/
def valueOf (base : Nat) (digits : Text) : Nat :=
  digits.foldl (fun value digit => base * value + (digitValue? digit).getD 0) 0

/-- The number that a numeral of a base stands for. -/
def natOfBase? (base : Nat) (numeral : Text) : Option Nat :=
  if numeral.isEmpty || !numeral.all (isDigitOf base) then none
  else some (valueOf base numeral)

/-- The number that a decimal numeral stands for. -/
def nat? (numeral : Text) : Option Nat := natOfBase? 10 numeral

/-- The lower-case digit for a value below sixteen. -/
def hexDigit (value : Nat) : Char :=
  if value < 10 then Char.ofNat ('0'.toNat + value) else Char.ofNat ('a'.toNat + (value - 10))

end TidyLines.Text
