import TidyLines.Text.Decimal

/-!
# Numbers of TOML

An underscore may stand between two digits.  Integers have 64 bits; a float must not be so large
that it would be read as infinity.
-/

namespace TidyLines.Toml.Number

/-- The digits of a numeral in which single underscores stand between digits. -/
def digits? (isDigit : Char → Bool) (numeral : Text) : Option Text :=
  let groups := numeral.splitOn '_'
  if groups.all (fun group => !group.isEmpty && group.all isDigit) then some groups.flatten
  else none

/-- The digits of a decimal numeral, which starts with zero only if it is zero. -/
def plain? (numeral : Text) : Option Text := do
  let digits ← digits? Char.isDigit numeral
  if numeral.head? = some '0' && numeral.length != 1 then none else some digits

/-- Splits a sign from a numeral: whether it is negative, and the rest. -/
def splitSign : Text → Bool × Text
  | '-' :: rest => (true, rest)
  | '+' :: rest => (false, rest)
  | rest => (false, rest)

/-- The least integer with 64 bits. -/
def leastInteger : Int := -0x8000000000000000

/-- The greatest integer with 64 bits. -/
def greatestInteger : Int := 0x7FFFFFFFFFFFFFFF

/-- The number, if it has 64 bits with a sign. -/
def fitting? (number : Int) : Option Int :=
  if leastInteger ≤ number && number ≤ greatestInteger then some number else none

/-- The integer with digits of a base other than ten. -/
def based? (base : Nat) (numeral : Text) : Option Int := do
  let digits ← digits? (Text.isDigitOf base) numeral
  fitting? (Text.valueOf base digits)

/-- The integer that a word stands for. -/
def integer? : Text → Option Int
  | '0' :: 'x' :: rest => based? 16 rest
  | '0' :: 'o' :: rest => based? 8 rest
  | '0' :: 'b' :: rest => based? 2 rest
  | word => do
    let (negative, numeral) := splitSign word
    let value := Text.valueOf 10 (← plain? numeral)
    fitting? (if negative then -(value : Int) else value)

/-- The least number that is read as infinity: half a unit in the last place above the largest
float. -/
def infinityBound : Nat := Nat.pow 2 1024 - Nat.pow 2 970

/-- Whether digits times a power of ten reach infinity.  Numerals with very large or very small
exponents are told apart by their lengths. -/
def overflows (digits : Text) (exponent : Int) : Bool :=
  let significant := digits.dropWhile (· == '0')
  let magnitude := (significant.length : Int) + exponent
  if significant.isEmpty || magnitude < 300 then false
  else if 400 < magnitude then true
  else if 0 ≤ exponent then
    infinityBound ≤ Text.valueOf 10 significant * Nat.pow 10 exponent.toNat
  else
    infinityBound * Nat.pow 10 (-exponent).toNat ≤ Text.valueOf 10 significant

/-- The two parts of a word around the first character that matches, if there is one. -/
def splitAround (matching : Char → Bool) (word : Text) : Text × Option Text :=
  match word.dropWhile (fun character => !matching character) with
  | [] => (word, none)
  | _ :: rest => (word.takeWhile (fun character => !matching character), some rest)

/-- The value of an exponent. -/
def exponent? (word : Text) : Option Int := do
  let (negative, numeral) := splitSign word
  let value := Text.valueOf 10 (← digits? Char.isDigit numeral)
  return if negative then -(value : Int) else value

/-- Whether a word is a float with digits. -/
def isDecimalFloat (word : Text) : Bool :=
  let (negative, unsigned) := splitSign word
  let (mantissa, exponent) := splitAround (fun mark => mark == 'e' || mark == 'E') unsigned
  let (whole, fraction) := splitAround (· == '.') mantissa
  if exponent.isNone && fraction.isNone then false
  else
    let read : Option (Text × Text × Int) := do
      let wholeDigits ← plain? whole
      let fractionDigits ← match fraction with
        | some digits => digits? Char.isDigit digits
        | none => some []
      let power ← match exponent with
        | some word => exponent? word
        | none => some 0
      return (wholeDigits, fractionDigits, power)
    match read with
    | some (wholeDigits, fractionDigits, power) =>
      negative || !overflows (wholeDigits ++ fractionDigits) (power - fractionDigits.length)
    | none => false

/-- Whether a word is a float. -/
def isFloat (word : Text) : Bool :=
  let (_, unsigned) := splitSign word
  unsigned == "inf".toList || unsigned == "nan".toList || isDecimalFloat word

end TidyLines.Toml.Number
