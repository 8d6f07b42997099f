import FormWiring.Derive.Field
import FormWiring.Form.Data

/-!
# Decimal texts

The digits that a number is printed with read back as that number, with a minus in front or without. The bounds of
the two integer types then decide alone whether a printed number is one of them.

Main statement: `Text.decimalInteger?_printed`.
-/

set_option autoImplicit false

namespace FormWiring

namespace Text

theorem isDigit_iff {c : Char} : isDigit c = true ↔ c.isDigit = true := by
  unfold isDigit Char.isDigit
  rw [Bool.and_eq_true, Bool.and_eq_true, decide_eq_true_eq, decide_eq_true_eq, decide_eq_true_eq,
    decide_eq_true_eq]
  rfl

theorem digitValue_of_isDigit {c : Char} (h : isDigit c = true) : digitValue c = c.toNat - '0'.toNat := by
  unfold digitValue
  rw [if_pos h]
  rfl

/-- The value of digits is what the library reads them as. -/
theorem digitsValueFrom_eq_ofDigitChars (value : Nat) {digits : List Char} (h : digits.all isDigit = true) :
    digitsValueFrom 10 value digits = Nat.ofDigitChars 10 digits value := by
  unfold digitsValueFrom
  induction digits generalizing value with
  | nil => exact Nat.ofDigitChars_nil.symm
  | cons c digits ih =>
    rw [List.all_cons, Bool.and_eq_true] at h
    rw [List.foldl_cons, ih _ h.2, Nat.ofDigitChars_cons, digitValue_of_isDigit h.1, Nat.mul_comm value 10]

theorem toList_toString (n : Nat) : (toString n).toList = Nat.toDigits 10 n := by
  rw [Nat.toString_eq_repr, Nat.toList_repr]

theorem all_isDigit_toDigits (n : Nat) : (Nat.toDigits 10 n).all isDigit = true := by
  rw [List.all_eq_true]
  intro c hc
  exact isDigit_iff.2 (Nat.isDigit_of_mem_toDigits (by decide) (by decide) hc)

/-- **Digits printed** for a number are worth that number. -/
theorem digitsValue_toDigits (n : Nat) : digitsValue 10 (Nat.toDigits 10 n) = n := by
  unfold digitsValue
  rw [digitsValueFrom_eq_ofDigitChars 0 (all_isDigit_toDigits n)]
  exact Nat.ofDigitChars_ten_toDigits

/-- **A printed number** reads back, with a minus or without. A minus before zero is no matter. -/
theorem decimalInteger?_printed (negative : Bool) (n : Nat) :
    decimalInteger? ((if negative then "-" else "") ++ toString n) =
      some (if negative then -(n : Int) else n) := by
  have hempty : (Nat.toDigits 10 n).isEmpty = false := by
    rw [List.isEmpty_eq_false_iff]
    exact Nat.toDigits_ne_nil
  have hdigits := all_isDigit_toDigits n
  have hvalue := digitsValue_toDigits n
  unfold decimalInteger?
  rw [String.toList_append, toList_toString]
  -- the first digit is not a sign
  cases hlist : Nat.toDigits 10 n with
  | nil => exact absurd hlist Nat.toDigits_ne_nil
  | cons c cs =>
    rw [hlist] at hempty hdigits hvalue
    cases negative with
    | true =>
      simp [hdigits, hvalue]
    | false =>
      have hc : isDigit c = true := by
        rw [List.all_cons, Bool.and_eq_true] at hdigits
        exact hdigits.1
      have hminus : c ≠ '-' := by
        rintro rfl
        exact absurd hc (by decide)
      have hplus : c ≠ '+' := by
        rintro rfl
        exact absurd hc (by decide)
      simp [hdigits, hvalue, hminus, hplus]

end Text

/-! ## Numbers of a size -/

theorem decimalInt64?_printed (negative : Bool) (n : Nat) :
    decimalInt64? ((if negative then "-" else "") ++ toString n) =
      Datum.toInt64? (.int (if negative then -(n : Int) else n)) := by
  unfold decimalInt64?
  rw [Text.decimalInteger?_printed]
  rfl

theorem decimalInt32?_printed (negative : Bool) (n : Nat) :
    decimalInt32? ((if negative then "-" else "") ++ toString n) =
      Datum.toInt32? (.int (if negative then -(n : Int) else n)) := by
  unfold decimalInt32?
  rw [Text.decimalInteger?_printed]
  rfl

end FormWiring
