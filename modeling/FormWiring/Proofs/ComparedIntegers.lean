import FormWiring.Proofs.Doubles
import FormWiring.Proofs.FieldReports

/-!
# Integers compared

Numeric limits and between pairs read texts as doubles and compare these. So they compare integers as their doubles:
in order wherever the integers are, exactly where both have 53 bits at most, and with larger ones taken for equal that
round to the same value. What is out of range compares with nothing.

Main statement: `compare_integers`.
-/

set_option autoImplicit false

namespace FormWiring

open Check

/-! ## Comparison -/

/-- **Comparison of integers as doubles**: both are in range, and their doubles are in order. -/
def DoubleLE (x y : Int) : Prop :=
  ∃ r r', HasDouble x r ∧ HasDouble y r' ∧ r ≤ r'

/-- Integers up to 2 to the power 53 are their own doubles. -/
theorem hasDouble_self {x : Int} (hx : |x| ≤ 2 ^ 53) : HasDouble x x := by
  refine ⟨(roundsTo_iff_eq hx).2 rfl, hx.trans_lt ?_⟩
  exact pow_lt_pow_right₀ (by norm_num) (by norm_num)

theorem doubleLE_iff_le {x y : Int} (hx : |x| ≤ 2 ^ 53) (hy : |y| ≤ 2 ^ 53) : DoubleLE x y ↔ x ≤ y := by
  constructor
  · rintro ⟨r, r', hr, hr', hle⟩
    rw [(roundsTo_iff_eq hx).1 hr.1, (roundsTo_iff_eq hy).1 hr'.1] at hle
    exact hle
  · exact fun hle => ⟨x, y, hasDouble_self hx, hasDouble_self hy, hle⟩

theorem doubleLE_of_le {x y : Int} (hle : x ≤ y) (hx : ∃ r, HasDouble x r) (hy : ∃ r, HasDouble y r) :
    DoubleLE x y := by
  obtain ⟨r, hr⟩ := hx
  obtain ⟨r', hr'⟩ := hy
  exact ⟨r, r', hr, hr', hr.1.mono hr'.1 hle⟩

/-! ## Texts -/

/-- Digits and the minus are no blanks. -/
theorem isBlank_of_denotes {cs : List Char} {n : Int} (h : Denotes cs n) {c : Char} (hc : c ∈ cs) :
    Text.isBlank c = false := by
  have hdigit (digits : List Char) (hdigits : digits.all Text.isDigit = true) (hmem : c ∈ digits) :
      Text.isBlank c = false := by
    have hrange := List.all_eq_true.1 hdigits c hmem
    unfold Text.isDigit at hrange
    rw [Bool.and_eq_true, decide_eq_true_eq, decide_eq_true_eq, Char.le_def, Char.le_def,
      UInt32.le_iff_toNat_le, UInt32.le_iff_toNat_le] at hrange
    change 48 ≤ c.toNat ∧ c.toNat ≤ 57 at hrange
    unfold Text.isBlank
    simp only [Bool.or_eq_false_iff, Bool.and_eq_false_iff, decide_eq_false_iff_not, beq_eq_false_iff_ne]
    omega
  cases h with
  | plain hne hdigits => exact hdigit _ hdigits hc
  | minus hne hdigits =>
    rcases List.mem_cons.1 hc with rfl | hmem
    · decide
    · exact hdigit _ hdigits hmem

theorem ne_nil_of_denotes {cs : List Char} {n : Int} (h : Denotes cs n) : cs ≠ [] := by
  cases h with
  | plain hne _ => exact hne
  | minus _ _ => exact List.cons_ne_nil _ _

/-- Nothing is trimmed from a text without blanks. -/
theorem trimChars_eq_self {cs : List Char} (h : ∀ c ∈ cs, Text.isBlank c = false) : Text.trimChars cs = cs := by
  have hdrop (l : List Char) (hl : ∀ c ∈ l, Text.isBlank c = false) : l.dropWhile Text.isBlank = l := by
    cases l with
    | nil => rfl
    | cons c l => rw [List.dropWhile_cons_of_neg (by simp [hl c List.mem_cons_self])]
  unfold Text.trimChars Text.trimLeft Text.trimRight
  rw [hdrop cs h, hdrop cs.reverse (fun c hc => h c (List.mem_reverse.1 hc)), List.reverse_reverse]

theorem trimChars_of_denotes {cs : List Char} {n : Int} (h : Denotes cs n) : Text.trimChars cs = cs :=
  trimChars_eq_self fun _ hc => isBlank_of_denotes h hc

/-- **Two texts of integers** compare as the doubles of the integers. -/
theorem exists_finiteOfText?_le_iff {cs ds : List Char} {x y : Int} (hx : Denotes cs x) (hy : Denotes ds y) :
    (∃ a b, finiteOfText? cs = some a ∧ finiteOfText? ds = some b ∧ a ≤ b) ↔ DoubleLE x y := by
  have hunit : (0 : Int) < 2 ^ unitExponent := by positivity
  constructor
  · rintro ⟨a, b, ha, hb, hle⟩
    obtain ⟨r, hr, rfl⟩ := (finiteOfText?_eq_some_iff hx).1 ha
    obtain ⟨r', hr', rfl⟩ := (finiteOfText?_eq_some_iff hy).1 hb
    exact ⟨r, r', hr, hr', le_of_mul_le_mul_right hle hunit⟩
  · rintro ⟨r, r', hr, hr', hle⟩
    exact ⟨_, _, (finiteOfText?_eq_some_iff hx).2 ⟨r, hr, rfl⟩, (finiteOfText?_eq_some_iff hy).2 ⟨r', hr', rfl⟩,
      mul_le_mul_of_nonneg_right hle hunit.le⟩

/-! ## Validators -/

/-- A value is within bounds when it compares with both. -/
theorem isWithin_iff (min max : String) (cs : List Char) :
    isWithin min max cs = true ↔
      (∃ a c, numericBound? min = some a ∧ finiteOfText? cs = some c ∧ a ≤ c) ∧
        ∃ c b, finiteOfText? cs = some c ∧ numericBound? max = some b ∧ c ≤ b := by
  unfold isWithin
  cases numericBound? min <;> cases numericBound? max <;> cases finiteOfText? cs <;> simp

theorem accepts_numericLimit {min max value : String} {low high n : Int} (hmin : Denotes min.toList low)
    (hmax : Denotes max.toList high) (hvalue : Denotes value.toList n) (required : Bool) :
    (FieldCheck.tested (.numericLimit min max) required).accepts value = true ↔
      DoubleLE low n ∧ DoubleLE n high := by
  have hne : ¬ value.toList.isEmpty = true := by
    rw [List.isEmpty_iff]
    exact ne_nil_of_denotes hvalue
  rw [FieldCheck.accepts, acceptsTrimmed, trimChars_of_denotes hvalue, if_neg hne, TextTest.accepts, isWithin_iff]
  unfold numericBound?
  rw [trimChars_of_denotes hmin, trimChars_of_denotes hmax, exists_finiteOfText?_le_iff hmin hvalue,
    exists_finiteOfText?_le_iff hvalue hmax]

theorem accepts_between {s : Screen} {start limit : Binding} {x y : Int}
    (hstart : Denotes (s.text start.input).toList x) (hlimit : Denotes (s.text limit.input).toList y) :
    (Validator.between start limit).accepts s = true ↔ DoubleLE x y := by
  have hnumber (name : String) (z : Int) (hz : Denotes (s.text name).toList z) :
      Validator.numberIn? s name = finiteOfText? (s.text name).toList := by
    rw [Validator.numberIn?, trimChars_of_denotes hz]
  rw [← exists_finiteOfText?_le_iff hstart hlimit, Validator.accepts, Validator.reports,
    hnumber _ _ hstart, hnumber _ _ hlimit]
  cases finiteOfText? (s.text start.input).toList with
  | none => cases finiteOfText? (s.text limit.input).toList <;> simp [Validator.betweenVerdicts]
  | some a => cases finiteOfText? (s.text limit.input).toList <;> simp [Validator.betweenVerdicts]

/-! ## The statement -/

/-- **Integers are compared as doubles**, whatever their length. A numeric limit accepts an integer exactly when it
compares with both bounds, and a between pair is accepted exactly when its start compares with its limit. The comparison
is that of the integers where both have 53 bits at most, and it never turns round integers that are in range. -/
theorem compare_integers {min max value : String} {low high n : Int} (hmin : Denotes min.toList low)
    (hmax : Denotes max.toList high) (hvalue : Denotes value.toList n) (required : Bool) (s : Screen)
    (start limit : Binding) {x y : Int} (hstart : Denotes (s.text start.input).toList x)
    (hlimit : Denotes (s.text limit.input).toList y) :
    ((FieldCheck.tested (.numericLimit min max) required).accepts value = true ↔
        DoubleLE low n ∧ DoubleLE n high) ∧
      ((Validator.between start limit).accepts s = true ↔ DoubleLE x y) ∧
      (∀ a b : Int, |a| ≤ 2 ^ 53 → |b| ≤ 2 ^ 53 → (DoubleLE a b ↔ a ≤ b)) ∧
      ∀ a b : Int, a ≤ b → (∃ r, HasDouble a r) → (∃ r, HasDouble b r) → DoubleLE a b := by
  refine ⟨accepts_numericLimit hmin hmax hvalue required, accepts_between hstart hlimit, ?_, ?_⟩
  · intro a b ha hb
    exact doubleLE_iff_le ha hb
  · intro a b hle ha hb
    exact doubleLE_of_le hle ha hb

/-- A value of 54 bits with a bound next to it, and a range from a negative number with zeros in front. -/
theorem compare_neighbours :
    Denotes "9007199254740993".toList 9007199254740993 ∧ Denotes "9007199254740992".toList 9007199254740992 ∧
      ((FieldCheck.tested (.numericLimit "9007199254740993" "9007199254740993") true).accepts
          "9007199254740992" = true ↔
        DoubleLE 9007199254740993 9007199254740992 ∧ DoubleLE 9007199254740992 9007199254740993) ∧
      ((Validator.between ⟨"from", "", true⟩ ⟨"to", "", true⟩).accepts (.ofTexts [("from", "-007"), ("to", "0")]) =
        true ↔ DoubleLE (-7) 0) := by
  have hlarge : Denotes "9007199254740993".toList 9007199254740993 := .plain (by decide) (by decide)
  have hvalue : Denotes "9007199254740992".toList 9007199254740992 := .plain (by decide) (by decide)
  have hstart : Denotes "-007".toList (-7) := .minus (by decide) (by decide)
  have hlimit : Denotes "0".toList 0 := .plain (by decide) (by decide)
  obtain ⟨hbounds, hpair, -⟩ := compare_integers hlarge hlarge hvalue true
    (.ofTexts [("from", "-007"), ("to", "0")]) ⟨"from", "", true⟩ ⟨"to", "", true⟩ hstart hlimit
  exact ⟨hlarge, hvalue, hbounds, hpair⟩

/-- Integers are not compared exactly: 2 to the power 53 passes for the integer after it. -/
theorem not_compared_exactly :
    ¬ ((∀ (min max value : String) (required : Bool) (low high n : Int), Denotes min.toList low →
          Denotes max.toList high → Denotes value.toList n →
          ((FieldCheck.tested (.numericLimit min max) required).accepts value = true ↔ low ≤ n ∧ n ≤ high)) ∧
        ∀ (s : Screen) (start limit : Binding) (x y : Int), Denotes (s.text start.input).toList x →
          Denotes (s.text limit.input).toList y →
          ((Validator.between start limit).accepts s = true ↔ x ≤ y)) := by
  rintro ⟨hlimits, -⟩
  have hexact := hlimits "9007199254740993" "9007199254740993" "9007199254740992" true 9007199254740993
    9007199254740993 9007199254740992 (.plain (by decide) (by decide)) (.plain (by decide) (by decide))
    (.plain (by decide) (by decide))
  have haccepted : (FieldCheck.tested (.numericLimit "9007199254740993" "9007199254740993") true).accepts
      "9007199254740992" = true := by decide +kernel
  have hle := (hexact.1 haccepted).1
  omega

end FormWiring
