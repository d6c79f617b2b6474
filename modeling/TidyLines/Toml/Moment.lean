import TidyLines.Text.Decimal

/-!
# Dates and times of TOML

A moment is a date, a time, or a date with a time and perhaps an offset from universal time.  Only
real days of the calendar are dates.
-/

namespace TidyLines.Toml.Moment

/-- The number that two digits stand for. -/
def twoDigits? (first second : Char) : Option Nat := Text.nat? [first, second]

/-- Whether a year has a leap day. -/
def isLeapYear (year : Nat) : Bool := year % 4 == 0 && (year % 100 != 0 || year % 400 == 0)

/-- The number of days of a month. -/
def daysIn (year month : Nat) : Nat :=
  if month = 2 then if isLeapYear year then 29 else 28
  else if month = 4 || month = 6 || month = 9 || month = 11 then 30
  else 31

/-- Takes a date from the front of a word. -/
def date? : Text → Option Text
  | y1 :: y2 :: y3 :: y4 :: '-' :: m1 :: m2 :: '-' :: d1 :: d2 :: rest => do
    let year ← Text.nat? [y1, y2, y3, y4]
    let month ← twoDigits? m1 m2
    let day ← twoDigits? d1 d2
    if 1 ≤ month && month ≤ 12 && 1 ≤ day && day ≤ daysIn year month then some rest else none
  | _ => none

/-- Takes an hour and a minute from the front of a word. -/
def hourMinute? : Text → Option Text
  | h1 :: h2 :: ':' :: m1 :: m2 :: rest => do
    let hour ← twoDigits? h1 h2
    let minute ← twoDigits? m1 m2
    if hour ≤ 23 && minute ≤ 59 then some rest else none
  | _ => none

/-- Takes the fraction of a second from the front of a word, if there is one. -/
def fraction? : Text → Option Text
  | '.' :: digit :: rest => if digit.isDigit then some (rest.dropWhile Char.isDigit) else none
  | '.' :: [] => none
  | rest => some rest

/-- Takes a time from the front of a word.  A minute may have a leap second. -/
def time? (word : Text) : Option Text := do
  match ← hourMinute? word with
  | ':' :: s1 :: s2 :: rest =>
    let second ← twoDigits? s1 s2
    if second ≤ 60 then fraction? rest else none
  | _ => none

/-- Whether a word is an offset from universal time, or nothing. -/
def isOffset : Text → Bool
  | [] => true
  | ['Z'] => true
  | ['z'] => true
  | '+' :: rest => hourMinute? rest == some []
  | '-' :: rest => hourMinute? rest == some []
  | _ => false

/-- Whether a word is a time, perhaps with an offset. -/
def isOffsetTime (word : Text) : Bool :=
  match time? word with
  | some rest => isOffset rest
  | none => false

/-- Whether a word is a date and nothing else. -/
def isDate (word : Text) : Bool := date? word == some []

/-- Whether a word is a moment. -/
def isMoment (word : Text) : Bool :=
  match date? word with
  | some [] => true
  | some ('T' :: rest) => isOffsetTime rest
  | some ('t' :: rest) => isOffsetTime rest
  | some _ => false
  | none => time? word == some []

end TidyLines.Toml.Moment
