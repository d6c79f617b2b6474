import Mathlib.Data.List.Basic
import TidyLines.Text.Decimal

/-!
# Numerals in base ten

A number is written in digits without a leading zero and read back as the same number.
-/

namespace TidyLines

namespace Text

theorem digitValue?_of_isDigit {digit : Char} (isDigit : digit.isDigit = true) :
    digitValue? digit = some (digit.toNat - '0'.toNat) := by
  rw [digitValue?, if_pos isDigit]

theorem isDigitOf_ten {digit : Char} (isDigit : digit.isDigit = true) :
    isDigitOf 10 digit = true := by
  have bounds := Char.isDigit_iff_toNat.mp isDigit
  rw [isDigitOf, digitValue?_of_isDigit isDigit, decide_eq_true_eq, Nat.sub_lt_iff_lt_add bounds.1]
  exact Nat.lt_succ_of_le bounds.2

theorem valueOf_ten {digits : Text} (areDigits : ∀ digit ∈ digits, digit.isDigit = true) :
    valueOf 10 digits = Nat.ofDigitChars 10 digits 0 := by
  apply List.foldl_ext
  intro value digit member
  rw [digitValue?_of_isDigit (areDigits digit member), Option.getD_some]

theorem isDigit_of_mem_ofNat {number : Nat} {digit : Char} (member : digit ∈ ofNat number) :
    digit.isDigit = true :=
  Nat.isDigit_of_mem_toDigits (by decide) (by decide) member

theorem valueOf_ofNat (number : Nat) : valueOf 10 (ofNat number) = number := by
  rw [valueOf_ten fun _ => isDigit_of_mem_ofNat, ofNat, Nat.ofDigitChars_ten_toDigits]

@[simp]
theorem nat?_ofNat (number : Nat) : nat? (ofNat number) = some number := by
  have nonempty : (ofNat number).isEmpty = false := by
    rw [List.isEmpty_eq_false_iff]
    exact Nat.toDigits_ne_nil
  have areDigits : (ofNat number).all (isDigitOf 10) = true :=
    List.all_eq_true.mpr fun _ member => isDigitOf_ten (isDigit_of_mem_ofNat member)
  simp [nat?, natOfBase?, nonempty, areDigits, valueOf_ofNat]

theorem ofNat_injective : Function.Injective ofNat :=
  Function.LeftInverse.injective valueOf_ofNat

/-- Only zero is written with a zero in front. -/
theorem exists_ofNat_eq (number : Nat) :
    ∃ digit rest, ofNat number = digit :: rest ∧ (digit = '0' → number = 0 ∧ rest = []) := by
  rw [ofNat]
  induction number using Nat.strongRecOn with
  | ind number ih =>
      by_cases small : number < 10
      · refine ⟨number.digitChar, [], Nat.toDigits_of_lt_base small, fun isZero => ⟨?_, rfl⟩⟩
        exact Nat.digitChar_eq_zero.mp isZero
      · have large : 10 ≤ number := Nat.le_of_not_lt small
        obtain ⟨digit, rest, written, leading⟩ := ih (number / 10) (by omega)
        rw [Nat.toDigits_of_base_le (by decide) large, written]
        refine ⟨digit, rest ++ [(number % 10).digitChar], rfl, fun isZero => ?_⟩
        have := (leading isZero).1
        omega

/-! ## Numerals inside a text -/

theorem notMem_ofNat {number : Nat} {character : Char} (noDigit : character.isDigit = false) :
    character ∉ ofNat number := by
  intro member
  rw [isDigit_of_mem_ofNat member] at noDigit
  cases noDigit

/-- A text is cut at its last separator in one way. -/
theorem eq_of_append_cons_eq {front other back behind : Text} {separator : Char}
    (notInBack : separator ∉ back) (notInBehind : separator ∉ behind)
    (same : front ++ separator :: back = other ++ separator :: behind) :
    front = other ∧ back = behind := by
  rcases List.append_eq_append_iff.mp same with ⟨middle, rfl, rest⟩ | ⟨middle, rfl, rest⟩
  · cases middle with
    | nil => exact ⟨(List.append_nil front).symm, (List.cons.inj rest).2⟩
    | cons first middle =>
        -- A later separator would stand in the text behind the cut.
        have inBack : separator ∈ back := by simp [(List.cons.inj rest).2]
        exact absurd inBack notInBack
  · cases middle with
    | nil => exact ⟨List.append_nil other, (List.cons.inj rest).2.symm⟩
    | cons first middle =>
        have inBehind : separator ∈ behind := by simp [(List.cons.inj rest).2]
        exact absurd inBehind notInBehind

/-- A numeral in front of a blank is read in one way. -/
theorem eq_of_ofNat_append_blank_eq {number other : Nat} {rest remaining : Text}
    (same : ofNat number ++ ' ' :: rest = ofNat other ++ ' ' :: remaining) :
    number = other ∧ rest = remaining := by
  have blank : ' '.isDigit = false := by decide
  have reversed : rest.reverse ++ ' ' :: (ofNat number).reverse =
      remaining.reverse ++ ' ' :: (ofNat other).reverse := by
    simpa using congrArg List.reverse same
  obtain ⟨rests, digits⟩ := eq_of_append_cons_eq (by simp [notMem_ofNat blank])
    (by simp [notMem_ofNat blank]) reversed
  exact ⟨ofNat_injective (List.reverse_inj.mp digits), List.reverse_inj.mp rests⟩

end Text

end TidyLines
