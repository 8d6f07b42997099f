import FormWiring.Proofs.Decimal
import FormWiring.Validator
import Mathlib.Algebra.Order.Ring.Int
import Mathlib.Algebra.Order.Ring.Abs
import Mathlib.Algebra.Group.Int.Even
import Mathlib.Tactic.Linarith
import Mathlib.Tactic.Positivity
import Mathlib.Tactic.Ring

/-!
# Integers as doubles

What rounding an integer to a double means, said of the integers alone: 53 bits are kept, the nearer neighbour is taken,
and of two that are equally near the even one. Rounding keeps the order of integers and leaves those of 53 bits as they
are, but it brings larger ones together. Reading the text of an integer rounds it in this way and refuses what is out of
range then.

Main statements: `RoundsTo.mono`, `roundsTo_iff_eq`, `finiteOfText?_eq_some_iff`.
-/

set_option autoImplicit false

namespace FormWiring.Check

/-! ## Rounding -/

/-- **An integer rounds** to another: one with 53 bits and zeros behind them, as many as the integer is too long by. It
is off by half a unit in the last place at most, and by that much only if its last bit is zero. -/
def RoundsTo (n r : Int) : Prop :=
  ∃ (m : Int) (e : Nat), r = m * 2 ^ e ∧ |n| < 2 ^ 53 * 2 ^ e ∧ (e = 0 ∨ 2 ^ 52 * 2 ^ e ≤ |n|) ∧
    2 * |n - r| ≤ 2 ^ e ∧ (2 * |n - r| = 2 ^ e → Even m)

/-- Half a unit in the last place, in both directions. -/
theorem two_mul_le_of_near {n r unit : Int} (h : 2 * |n - r| ≤ unit) :
    2 * n ≤ 2 * r + unit ∧ 2 * r ≤ 2 * n + unit := by
  have hup := le_abs_self (n - r)
  have hdown := neg_abs_le (n - r)
  constructor <;> omega

theorem RoundsTo.neg {n r : Int} (h : RoundsTo n r) : RoundsTo (-n) (-r) := by
  obtain ⟨m, e, rfl, hlt, hle, hnear, htie⟩ := h
  have habs : |-n - -(m * 2 ^ e)| = |n - m * 2 ^ e| := by
    rw [← abs_neg]
    congr 1
    ring
  refine ⟨-m, e, by ring, ?_, ?_, ?_, ?_⟩
  · rwa [abs_neg]
  · rwa [abs_neg]
  · rwa [habs]
  · rw [habs]
    exact fun h => (htie h).neg

/-- Rounding does not change a sign. -/
theorem RoundsTo.nonneg {n r : Int} (h : RoundsTo n r) (hn : 0 ≤ n) : 0 ≤ r := by
  obtain ⟨m, e, rfl, -, hle, hnear, -⟩ := h
  rw [abs_of_nonneg hn] at hle
  have hlow := (two_mul_le_of_near hnear).1
  rcases hle with rfl | hle
  · rw [pow_zero] at hlow ⊢
    omega
  · have hpos : (0 : Int) < 2 ^ e := by positivity
    omega

theorem RoundsTo.nonpos {n r : Int} (h : RoundsTo n r) (hn : n ≤ 0) : r ≤ 0 := by
  have := h.neg.nonneg (by omega)
  omega

/-- Rounding keeps the order of integers that are not negative. Either both have the same last place, and then only a
tie could turn them round; or there is a power of two between them. -/
theorem RoundsTo.le_of_nonneg {n n' r r' : Int} (h : RoundsTo n r) (h' : RoundsTo n' r') (hn : 0 ≤ n)
    (hle : n ≤ n') : r ≤ r' := by
  obtain ⟨m, e, rfl, hlt, hlow, hnear, htie⟩ := h
  obtain ⟨m', e', rfl, hlt', hlow', hnear', htie'⟩ := h'
  rw [abs_of_nonneg hn] at hlt hlow
  rw [abs_of_nonneg (hn.trans hle)] at hlt' hlow'
  have hpos : (0 : Int) < 2 ^ e := by positivity
  have hpos' : (0 : Int) < 2 ^ e' := by positivity
  have hup := (two_mul_le_of_near hnear).2
  have hdown := (two_mul_le_of_near hnear').1
  rcases Nat.lt_trichotomy e e' with he | rfl | he
  · have hstep : (2 : Int) * 2 ^ e ≤ 2 ^ e' := by
      rw [← pow_succ']
      exact pow_le_pow_right₀ (by norm_num) he
    have hbig := hlow'.resolve_left (by omega)
    -- what rounds up from below a power of two stops there, and what rounds down from above it as well
    have hm : m ≤ 2 ^ 53 := by
      have : 2 * m * 2 ^ e < (2 ^ 54 + 1) * 2 ^ e := by linarith
      have := lt_of_mul_lt_mul_right this hpos.le
      omega
    have hm' : 2 ^ 52 ≤ m' := by
      have : (2 ^ 53 - 1) * 2 ^ e' ≤ 2 * m' * 2 ^ e' := by linarith
      have := le_of_mul_le_mul_right this hpos'
      omega
    calc m * 2 ^ e ≤ 2 ^ 53 * 2 ^ e := mul_le_mul_of_nonneg_right hm hpos.le
      _ = 2 ^ 52 * (2 * 2 ^ e) := by ring
      _ ≤ 2 ^ 52 * 2 ^ e' := mul_le_mul_of_nonneg_left hstep (by norm_num)
      _ ≤ m' * 2 ^ e' := mul_le_mul_of_nonneg_right hm' hpos'.le
  · refine mul_le_mul_of_nonneg_right ?_ hpos.le
    by_contra hm
    have hstep : m' * 2 ^ e + 2 ^ e ≤ m * 2 ^ e := by
      have : (m' + 1) * 2 ^ e ≤ m * 2 ^ e := mul_le_mul_of_nonneg_right (by omega) hpos.le
      linarith
    -- so both are ties between the same two neighbours, of which one is odd
    have hnext : m = m' + 1 := by
      have : m * 2 ^ e ≤ (m' + 1) * 2 ^ e := by linarith
      have := le_of_mul_le_mul_right this hpos
      omega
    have hodd := htie (by
      rw [abs_of_nonpos (by linarith)]
      linarith)
    have heven := htie' (by
      rw [abs_of_nonneg (by linarith)]
      linarith)
    rw [hnext, Int.even_add_one] at hodd
    exact hodd heven
  · have hstep : (2 : Int) * 2 ^ e' ≤ 2 ^ e := by
      rw [← pow_succ']
      exact pow_le_pow_right₀ (by norm_num) he
    have hbig := hlow.resolve_left (by omega)
    linarith

/-- **Rounding keeps the order** of integers. -/
theorem RoundsTo.mono {n n' r r' : Int} (h : RoundsTo n r) (h' : RoundsTo n' r') (hle : n ≤ n') : r ≤ r' := by
  rcases le_or_gt 0 n with hn | hn
  · exact h.le_of_nonneg h' hn hle
  · rcases le_or_gt n' 0 with hn' | hn'
    · have := h'.neg.le_of_nonneg h.neg (by omega) (by omega)
      omega
    · exact (h.nonpos hn.le).trans (h'.nonneg hn'.le)

/-- An integer rounds to one value only. -/
theorem RoundsTo.unique {n r r' : Int} (h : RoundsTo n r) (h' : RoundsTo n r') : r = r' :=
  le_antisymm (h.mono h' le_rfl) (h'.mono h le_rfl)

/-- **Integers up to 2 to the power 53** are doubles. -/
theorem roundsTo_iff_eq {n r : Int} (hn : |n| ≤ 2 ^ 53) : RoundsTo n r ↔ r = n := by
  have hself : RoundsTo n n := by
    rcases hn.lt_or_eq with hlt | heq
    · exact ⟨n, 0, by simp, by simpa using hlt, .inl rfl, by simp, by simp⟩
    · -- the bound itself has 54 bits, of which the last is zero
      rcases abs_choice n with h | h
      · have : n = 2 ^ 52 * 2 ^ 1 := by omega
        exact ⟨2 ^ 52, 1, this, by rw [heq]; norm_num, .inr (by rw [heq]; norm_num), by simp, by simp⟩
      · have : n = -2 ^ 52 * 2 ^ 1 := by omega
        exact ⟨-2 ^ 52, 1, this, by rw [heq]; norm_num, .inr (by rw [heq]; norm_num), by simp, by simp⟩
  exact ⟨fun h => h.unique hself, fun h => h ▸ hself⟩

/-! ## Rounding of units -/

/-- The nearest integer to a quotient, told without division. -/
theorem roundEven_spec (a : Nat) {b : Nat} (hb : 0 < b) :
    2 * a ≤ 2 * (roundEven a b * b) + b ∧ 2 * (roundEven a b * b) ≤ 2 * a + b ∧
      (2 * a = 2 * (roundEven a b * b) + b ∨ 2 * (roundEven a b * b) = 2 * a + b → Even (roundEven a b)) := by
  have hdiv : a / b * b + a % b = a := Nat.div_add_mod' a b
  have hmod : a % b < b := Nat.mod_lt a hb
  have hnext : (a / b + 1) * b = a / b * b + b := by ring
  unfold roundEven
  dsimp only
  split_ifs with hlow hhigh heven
  · exact ⟨by omega, by omega, by omega⟩
  · rw [hnext]
    exact ⟨by omega, by omega, by omega⟩
  · exact ⟨by omega, by omega, fun _ => Nat.even_iff.2 (by simpa using heven)⟩
  · rw [hnext]
    refine ⟨by omega, by omega, fun _ => Nat.even_add_one.2 ?_⟩
    rw [Nat.even_iff]
    simpa using heven

/-- A common factor does not matter. -/
theorem roundEven_mul_right (a b : Nat) {k : Nat} (hk : 0 < k) : roundEven (a * k) (b * k) = roundEven a b := by
  have hlow : 2 * (a % b * k) < b * k ↔ 2 * (a % b) < b := by
    rw [← Nat.mul_assoc, Nat.mul_lt_mul_right hk]
  have hhigh : b * k < 2 * (a % b * k) ↔ b < 2 * (a % b) := by
    rw [← Nat.mul_assoc, Nat.mul_lt_mul_right hk]
  unfold roundEven
  rw [Nat.mul_div_mul_right a b hk, Nat.mul_mod_mul_right]
  simp only [hlow, hhigh]

/-- Nothing is lost where the quotient is whole. -/
theorem roundEven_mul_self (a : Nat) {b : Nat} (hb : 0 < b) : roundEven (a * b) b = a := by
  unfold roundEven
  rw [Nat.mul_div_cancel a hb, Nat.mul_mod_left]
  simp [hb]

/-- Rounding of a natural number, told without signs. -/
theorem roundsTo_natCast {n m e : Nat} (hlt : n < 2 ^ 53 * 2 ^ e) (hle : 2 ^ 52 * 2 ^ e ≤ n)
    (hup : 2 * n ≤ 2 * (m * 2 ^ e) + 2 ^ e) (hdown : 2 * (m * 2 ^ e) ≤ 2 * n + 2 ^ e)
    (htie : 2 * n = 2 * (m * 2 ^ e) + 2 ^ e ∨ 2 * (m * 2 ^ e) = 2 * n + 2 ^ e → Even m) :
    RoundsTo n (m * 2 ^ e : Nat) := by
  have hnear : 2 * |(n : Int) - (m * 2 ^ e : Nat)| ≤ (2 ^ e : Nat) ∧
      (2 * |(n : Int) - (m * 2 ^ e : Nat)| = (2 ^ e : Nat) → Even m) := by
    rcases abs_cases ((n : Int) - (m * 2 ^ e : Nat)) with ⟨habs, -⟩ | ⟨habs, -⟩ <;> rw [habs]
    · exact ⟨by omega, fun h => htie (.inl (by omega))⟩
    · exact ⟨by omega, fun h => htie (.inr (by omega))⟩
  refine ⟨m, e, by push_cast; rfl, ?_, .inr ?_, by exact_mod_cast hnear.1, fun h => ?_⟩
  · rw [abs_of_nonneg (by positivity)]
    exact_mod_cast hlt
  · rw [abs_of_nonneg (by positivity)]
    exact_mod_cast hle
  · exact_mod_cast hnear.2 (by exact_mod_cast h)

/-- **Whole numbers are rounded in units as they are in themselves**, whatever power of two the unit is. -/
theorem exists_roundUnits_eq {n : Nat} (hn : n ≠ 0) :
    ∃ r : Nat, RoundsTo n r ∧ ∀ w, roundUnits (n * 2 ^ w) 1 = r * 2 ^ w := by
  obtain ⟨hlow, hhigh⟩ := (Nat.log2_eq_iff hn).1 rfl
  set k := n.log2 with hk
  have hunits (w : Nat) : roundUnits (n * 2 ^ w) 1 =
      roundEven (n * 2 ^ w) (2 ^ (k + w + 1 - 53)) * 2 ^ (k + w + 1 - 53) := by
    have hbits : (n * 2 ^ w).log2 = k + w := by
      rw [Nat.log2_eq_iff (Nat.mul_ne_zero hn (by positivity)), show k + w + 1 = k + 1 + w by omega, pow_add,
        pow_add 2 (k + 1)]
      exact ⟨Nat.mul_le_mul_right _ hlow, (Nat.mul_lt_mul_right (by positivity)).2 hhigh⟩
    unfold roundUnits
    dsimp only
    rw [Nat.div_one, hbits, Nat.one_mul]
    rfl
  rcases Nat.lt_or_ge k 53 with hshort | hlong
  · -- short enough to be kept as it is
    refine ⟨n, (roundsTo_iff_eq ?_).2 rfl, fun w => ?_⟩
    · rw [abs_of_nonneg (by positivity)]
      have : n < 2 ^ 53 := lt_of_lt_of_le hhigh (Nat.pow_le_pow_right (by decide) (by omega))
      exact_mod_cast this.le
    · have hsplit : (2 : Nat) ^ w = 2 ^ (w - (k + w + 1 - 53)) * 2 ^ (k + w + 1 - 53) := by
        rw [← pow_add]
        congr 1
        omega
      rw [hunits, hsplit, ← Nat.mul_assoc, roundEven_mul_self _ (by positivity)]
  · obtain ⟨e, he⟩ : ∃ e, k = 52 + e := ⟨k - 52, by omega⟩
    rw [he, pow_add] at hlow
    rw [he, show 52 + e + 1 = 53 + e by omega, pow_add] at hhigh
    obtain ⟨hup, hdown, htie⟩ := roundEven_spec n (show 0 < 2 ^ e by positivity)
    refine ⟨_, roundsTo_natCast hhigh hlow hup hdown htie, fun w => ?_⟩
    have hshift : k + w + 1 - 53 = e + w := by omega
    rw [hunits, hshift, pow_add 2 e, roundEven_mul_right n _ (by positivity), Nat.mul_assoc]

/-! ## Range -/

/-- **Double of an integer**: what it rounds to, unless that is out of range. -/
def HasDouble (n r : Int) : Prop :=
  RoundsTo n r ∧ |r| < 2 ^ 1024

theorem roundsTo_two_pow {k : Nat} (hk : 52 ≤ k) : RoundsTo (2 ^ k) (2 ^ k) := by
  obtain ⟨e, rfl⟩ := Nat.exists_eq_add_of_le hk
  have hpos : (0 : Int) < 2 ^ e := by positivity
  have habs : |(2 : Int) ^ (52 + e)| = 2 ^ 52 * 2 ^ e := by rw [abs_of_nonneg (by positivity), pow_add]
  refine ⟨2 ^ 52, e, pow_add 2 52 e, ?_, .inr ?_, ?_, fun _ => ⟨2 ^ 51, by norm_num⟩⟩
  · rw [habs]
    linarith
  · rw [habs]
  · rw [sub_self, abs_zero, mul_zero]
    exact hpos.le

/-- An integer of more than 400 digits is out of range. -/
theorem two_pow_le_of_digits {n r : Nat} (h : RoundsTo n r) (hlong : 400 < (Nat.toDigits 10 n).length) :
    2 ^ 1024 ≤ r := by
  have hn : 10 ^ 400 ≤ n := by
    rw [← not_lt, ← Nat.length_toDigits_le_iff (by decide) (by decide), not_le]
    exact hlong
  have hpow (j k : Nat) (hjk : j ≤ 3 * k) : 2 ^ j ≤ 10 ^ k := by
    refine (Nat.pow_le_pow_right (by decide) hjk).trans ?_
    rw [pow_mul]
    exact Nat.pow_le_pow_left (by decide) k
  have hle : ((2 : Int) ^ 1024) ≤ n := by exact_mod_cast (hpow 1024 400 (by decide)).trans hn
  exact_mod_cast (roundsTo_two_pow (by decide)).mono h hle

/-- **Whole numbers** are read as their doubles, in units. -/
theorem ofDecimal_whole (negative : Bool) {n r : Nat} (h : RoundsTo n r) :
    ofDecimal negative n 0 =
      if r < 2 ^ 1024 then
        .finite ((if negative then -(r : Int) else r) * 2 ^ unitExponent)
      else .infinite negative := by
  unfold ofDecimal
  dsimp only
  rcases Nat.eq_zero_or_pos n with rfl | hn
  · -- zero is told apart before anything is rounded
    have hr : r = 0 := by
      have := (roundsTo_iff_eq (by simp)).1 h
      exact_mod_cast this
    rw [hr, if_pos (by rfl), if_pos (by positivity)]
    cases negative <;> simp
  obtain ⟨r', hr', hunits⟩ := exists_roundUnits_eq hn.ne'
  have hrr : r' = r := by exact_mod_cast hr'.unique h
  rw [if_neg (by simp [hn.ne'])]
  by_cases hlong : 400 < (Nat.toDigits 10 n).length
  · rw [if_pos (by omega), if_neg (not_lt.2 (two_pow_le_of_digits h hlong))]
  · have hscaled (w : Nat) : n * Nat.pow 10 (0 : Int).toNat * Nat.pow 2 w = n * 2 ^ w :=
      congrArg (· * 2 ^ w) (Nat.mul_one n)
    have hbits : rangeBits = 1024 + unitExponent := rfl
    have hrange (w : Nat) : Nat.pow 2 (1024 + w) ≤ r * 2 ^ w ↔ 2 ^ 1024 ≤ r := by
      rw [Nat.pow_eq, pow_add, Nat.mul_le_mul_right_iff (by positivity)]
    rw [if_neg (by omega), if_pos (le_refl (0 : Int)), hscaled, hunits, hrr, hbits]
    rcases Nat.lt_or_ge r (2 ^ 1024) with hlt | hge
    · rw [if_neg (mt (hrange _).1 (not_le.2 hlt)), if_pos hlt, Nat.cast_mul, Nat.cast_pow, Nat.cast_ofNat]
      cases negative with
      | false => simp only [Bool.false_eq_true, if_false]
      | true => simp only [if_true, neg_mul]
    · rw [if_pos ((hrange _).2 hge), if_neg (not_lt.2 hge)]

/-! ## Texts of integers -/

/-- **A text denotes an integer**: one digit or more, with a minus in front or without. -/
inductive Denotes : List Char → Int → Prop where
  | plain {digits : List Char} (hne : digits ≠ []) (hdigits : digits.all Text.isDigit = true) :
      Denotes digits (Nat.ofDigitChars 10 digits 0)
  | minus {digits : List Char} (hne : digits ≠ []) (hdigits : digits.all Text.isDigit = true) :
      Denotes ('-' :: digits) (-(Nat.ofDigitChars 10 digits 0 : Nat))

/-- Digits alone are a whole number, without point or exponent. -/
theorem unsigned?_digits (negative : Bool) {digits : List Char} (hne : digits ≠ [])
    (hdigits : digits.all Text.isDigit = true) :
    unsigned? negative digits = some (ofDecimal negative (Nat.ofDigitChars 10 digits 0) 0) := by
  have htake : digits.takeWhile Text.isDigit = digits := by
    simpa using @List.takeWhile_append_of_pos _ _ digits [] (List.all_eq_true.1 hdigits)
  have hdrop : digits.dropWhile Text.isDigit = [] := by
    simpa using @List.dropWhile_append_of_pos _ _ digits [] (List.all_eq_true.1 hdigits)
  unfold unsigned?
  rw [htake, hdrop]
  simp only [List.isEmpty_nil, Bool.and_true, List.append_nil]
  rw [if_neg (by simpa using hne), Text.digitsValue, Text.digitsValueFrom_eq_ofDigitChars 0 hdigits]
  rfl

/-- The sign is read off, the digits are a whole number. -/
theorem exists_ofText?_eq {cs : List Char} {n : Int} (h : Denotes cs n) :
    ∃ (negative : Bool) (value : Nat), n = (if negative then -(value : Int) else value) ∧
      BinaryValue.ofText? cs = some (ofDecimal negative value 0) := by
  cases h with
  | plain hne hdigits =>
    refine ⟨false, _, rfl, ?_⟩
    have hsign : splitSign cs = (false, cs) := by
      cases cs with
      | nil => rfl
      | cons c cs =>
        have hc : Text.isDigit c = true := by
          rw [List.all_cons, Bool.and_eq_true] at hdigits
          exact hdigits.1
        unfold splitSign
        split
        · next heq => cases heq; exact absurd hc (by decide)
        · next heq => cases heq; exact absurd hc (by decide)
        · rfl
    rw [BinaryValue.ofText?, hsign]
    exact unsigned?_digits false hne hdigits
  | minus hne hdigits => exact ⟨true, _, rfl, unsigned?_digits true hne hdigits⟩

theorem exists_roundsTo (n : Nat) : ∃ r : Nat, RoundsTo n r := by
  rcases Nat.eq_zero_or_pos n with rfl | hn
  · exact ⟨0, (roundsTo_iff_eq (by simp)).2 rfl⟩
  · obtain ⟨r, hr, -⟩ := exists_roundUnits_eq hn.ne'
    exact ⟨r, hr⟩

/-- **The text of an integer** is read as its double, in units; out of range it is no number. -/
theorem finiteOfText?_eq_some_iff {cs : List Char} {n : Int} (h : Denotes cs n) {units : Int} :
    finiteOfText? cs = some units ↔ ∃ r, HasDouble n r ∧ units = r * 2 ^ unitExponent := by
  obtain ⟨negative, value, hvalue, hread⟩ := exists_ofText?_eq h
  obtain ⟨r, hr⟩ := exists_roundsTo value
  have hrounds : RoundsTo n (if negative then -(r : Int) else r) := by
    rw [hvalue]
    cases negative with
    | true => exact hr.neg
    | false => exact hr
  have habs : |if negative then -(r : Int) else r| = r := by
    cases negative <;> simp
  have hdouble (r' : Int) : HasDouble n r' ↔ r' = (if negative then -(r : Int) else r) ∧ r < 2 ^ 1024 := by
    constructor
    · rintro ⟨hr', hrange⟩
      have heq := hr'.unique hrounds
      rw [heq, habs] at hrange
      exact ⟨heq, by exact_mod_cast hrange⟩
    · rintro ⟨rfl, hrange⟩
      refine ⟨hrounds, ?_⟩
      rw [habs]
      exact_mod_cast hrange
  unfold finiteOfText?
  rw [hread, Option.bind_some, ofDecimal_whole negative hr]
  by_cases hrange : r < 2 ^ 1024
  · rw [if_pos hrange, BinaryValue.units?, Option.some_inj]
    constructor
    · exact fun h => ⟨_, (hdouble _).2 ⟨rfl, hrange⟩, h.symm⟩
    · rintro ⟨r', hr', rfl⟩
      rw [((hdouble r').1 hr').1]
  · rw [if_neg hrange]
    change none = some units ↔ _
    simp only [reduceCtorEq, false_iff, not_exists, not_and]
    exact fun r' hr' => absurd ((hdouble r').1 hr').2 hrange

end FormWiring.Check
