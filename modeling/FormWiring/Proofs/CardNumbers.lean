import FormWiring.Proofs.SeparatedDigits
import Mathlib.Data.Nat.Bits

/-!
# Typing errors in card numbers

The sum over a card number doubles every second digit from the end, so what a digit adds depends on the number of digits
behind it alone. Doubling permutes the digits modulo ten, which is why another digit in one place is noticed; the
difference that doubling makes is the same for 0 and 9 only, which is why exchanged neighbours are noticed but for
these two.

Main statement: `isCard_catchesErrors`.
-/

set_option autoImplicit false

namespace FormWiring.Check

/-! ## Sums -/

/-- **What a digit adds** to the sum. -/
def luhnTerm (isSecond : Bool) (d : Nat) : Nat :=
  if isSecond then doubled d else d

variable {d e : Nat} {front back ds : List Nat}

/-- The second digits in what follows are told by the parity of what stands before. -/
theorem luhnSum_append (isSecond : Bool) (front back : List Nat) :
    luhnSum isSecond (front ++ back) = luhnSum isSecond front + luhnSum (isSecond ^^ front.length.bodd) back := by
  induction front generalizing isSecond with
  | nil => simp [luhnSum]
  | cons d front ih =>
    have hparity : (!isSecond ^^ front.length.bodd) = (isSecond ^^ (d :: front).length.bodd) := by
      rw [List.length_cons, Nat.bodd_succ, Bool.xor_not, Bool.not_xor]
    rw [List.cons_append, luhnSum, ih, luhnSum, hparity, Nat.add_assoc]

/-- **One digit apart**, the sum over a number is what is before and what is after. -/
theorem luhnSum_reverse (front back : List Nat) (d : Nat) :
    luhnSum false (front ++ d :: back).reverse = luhnTerm back.length.bodd d +
      (luhnSum false back.reverse + luhnSum (!back.length.bodd) front.reverse) := by
  rw [List.reverse_append, List.reverse_cons, List.append_assoc, List.singleton_append, luhnSum_append,
    List.length_reverse, Bool.false_xor, luhnSum]
  exact Nat.add_left_comm _ _ _

/-- **Two neighbours apart**, one of them is doubled and the other is not. -/
theorem luhnSum_reverse_pair (front back : List Nat) (d e : Nat) :
    luhnSum false (front ++ d :: e :: back).reverse =
      luhnTerm (!back.length.bodd) d + luhnTerm back.length.bodd e +
        (luhnSum false back.reverse + luhnSum back.length.bodd front.reverse) := by
  have hback : luhnSum false (e :: back).reverse = luhnTerm back.length.bodd e + luhnSum false back.reverse :=
    luhnSum_reverse [] back e
  rw [luhnSum_reverse, hback, List.length_cons, Nat.bodd_succ, Bool.not_not]
  omega

/-- **Doubling permutes** the digits modulo ten. -/
theorem luhnTerm_mod_eq_iff : ∀ isSecond, ∀ d < 10, ∀ e < 10,
    luhnTerm isSecond d % 10 = luhnTerm isSecond e % 10 ↔ d = e := by
  decide

/-- **Exchanged neighbours** add the same only when they are equal or 0 and 9. -/
theorem luhnTerm_exchange_iff : ∀ isSecond, ∀ d < 10, ∀ e < 10,
    (luhnTerm (!isSecond) d + luhnTerm isSecond e) % 10 = (luhnTerm (!isSecond) e + luhnTerm isSecond d) % 10 ↔
      d = e ∨ d = 0 ∧ e = 9 ∨ d = 9 ∧ e = 0 := by
  decide

/-! ## Numbers -/

/-- **Digits of a card number.** -/
def IsCardNumber (ds : List Nat) : Prop :=
  13 ≤ ds.length ∧ ds.length ≤ 19 ∧ luhnSum false ds.reverse % 10 = 0

theorem IsCardNumber.replaced_iff (h : IsCardNumber (front ++ d :: back)) (hd : d < 10) (he : e < 10) :
    IsCardNumber (front ++ e :: back) ↔ e = d := by
  obtain ⟨hleast, hmost, hsum⟩ := h
  constructor
  · rintro ⟨-, -, hsum'⟩
    rw [luhnSum_reverse] at hsum hsum'
    rw [← luhnTerm_mod_eq_iff back.length.bodd e he d hd]
    omega
  · rintro rfl
    exact ⟨hleast, hmost, hsum⟩

theorem IsCardNumber.exchanged_iff (h : IsCardNumber (front ++ d :: e :: back)) (hd : d < 10) (he : e < 10) :
    IsCardNumber (front ++ e :: d :: back) ↔ d = e ∨ d = 0 ∧ e = 9 ∨ d = 9 ∧ e = 0 := by
  have hlength : (front ++ e :: d :: back).length = (front ++ d :: e :: back).length := by
    simp only [List.length_append, List.length_cons]
  obtain ⟨hleast, hmost, hsum⟩ := h
  rw [← luhnTerm_exchange_iff back.length.bodd d hd e he]
  unfold IsCardNumber
  rw [luhnSum_reverse_pair] at hsum ⊢
  omega

/-- **One last digit**: it stands for itself in the sum. -/
theorem exists_last_digit (hleast : 12 ≤ ds.length) (hmost : ds.length ≤ 18) :
    ∃ d < 10, ∀ e < 10, IsCardNumber (ds ++ [e]) ↔ e = d := by
  have hsum (e : Nat) : luhnSum false (ds ++ [e]).reverse = e + (0 + luhnSum true ds.reverse) := luhnSum_reverse ds [] e
  refine ⟨(10 - luhnSum true ds.reverse % 10) % 10, Nat.mod_lt _ (by decide), ?_⟩
  intro e he
  unfold IsCardNumber
  rw [hsum, List.length_append, List.length_singleton]
  omega

/-! ## Texts -/

variable {before between after cs : List Char} {c x : Char}

theorem isCard_iff : isCard cs = true ↔ IsSpaced [' ', '-'] cs ∧ IsCardNumber (digitsOf cs) := by
  unfold isCard
  rw [any_digits?_iff rfl]
  unfold IsCardNumber
  simp only [Bool.and_eq_true, decide_eq_true_eq, beq_iff_eq, and_assoc]

theorem isCard_append_cons_iff (hc : Text.isDigit c = true) :
    isCard (before ++ c :: after) = true ↔ (IsSpaced [' ', '-'] before ∧ IsSpaced [' ', '-'] after) ∧
      IsCardNumber (digitsOf before ++ Text.digitValue c :: digitsOf after) := by
  rw [isCard_iff, isSpaced_append_cons_iff hc, digitsOf_append, digitsOf_cons hc]

/-- **Card numbers catch typing errors.** They have 13 to 19 digits, with blanks and dashes anywhere. Another digit in
one place spoils the number, and exchanged neighbours do, unless they are 0 and 9. Of 12 to 18 digits exactly one digit
more makes a number. -/
theorem isCard_catchesErrors :
    (∀ cs, isCard cs = true → IsSpaced [' ', '-'] cs ∧ 13 ≤ cs.countP Text.isDigit ∧ cs.countP Text.isDigit ≤ 19) ∧
      (∀ before after c d, isCard (before ++ c :: after) = true → Text.isDigit c = true → Text.isDigit d = true →
        d ≠ c → isCard (before ++ d :: after) = false) ∧
      (∀ before between after c d, isCard (before ++ c :: (between ++ d :: after)) = true →
        Text.isDigit c = true → Text.isDigit d = true → (∀ s ∈ between, s ∈ [' ', '-']) → c ≠ d →
        (isCard (before ++ d :: (between ++ c :: after)) = true ↔ c = '0' ∧ d = '9' ∨ c = '9' ∧ d = '0')) ∧
      ∀ cs, IsSpaced [' ', '-'] cs → 12 ≤ cs.countP Text.isDigit → cs.countP Text.isDigit ≤ 18 →
        ∃! c, Text.isDigit c = true ∧ isCard (cs ++ [c]) = true := by
  refine ⟨?_, ?_, ?_, ?_⟩
  · intro cs haccepts
    obtain ⟨hspaced, hleast, hmost, -⟩ := isCard_iff.1 haccepts
    rw [length_digitsOf] at hleast hmost
    exact ⟨hspaced, hleast, hmost⟩
  · intro before after c d haccepts hc hd hne
    obtain ⟨-, hnumber⟩ := (isCard_append_cons_iff hc).1 haccepts
    rw [Bool.eq_false_iff, ne_eq, isCard_append_cons_iff hd]
    rintro ⟨-, hreplaced⟩
    rw [hnumber.replaced_iff (Text.digitValue_lt_ten hc) (Text.digitValue_lt_ten hd)] at hreplaced
    exact hne (Text.eq_of_digitValue_eq hd hc hreplaced)
  · intro before between after c d haccepts hc hd hbetween hne
    have hdigits : ∀ x, digitsOf (between ++ x :: after) = digitsOf (x :: after) := by
      intro x
      rw [digitsOf_append, digitsOf_eq_nil, List.nil_append]
      intro s hs
      have hmem := hbetween s hs
      simp only [List.mem_cons, List.not_mem_nil, or_false] at hmem
      rcases hmem with rfl | rfl <;> rfl
    rw [isCard_append_cons_iff hc, hdigits, digitsOf_cons hd, isSpaced_append_cons_iff hd] at haccepts
    rw [isCard_append_cons_iff hd, hdigits, digitsOf_cons hc, isSpaced_append_cons_iff hc,
      and_iff_right haccepts.1, haccepts.2.exchanged_iff (Text.digitValue_lt_ten hc) (Text.digitValue_lt_ten hd),
      Text.digitValue_eq_iff hc hd, or_iff_right hne]
    have hzero {x : Char} (hx : Text.isDigit x = true) : Text.digitValue x = 0 ↔ x = '0' :=
      Text.digitValue_eq_iff hx (show Text.isDigit '0' = true from rfl)
    have hnine {x : Char} (hx : Text.isDigit x = true) : Text.digitValue x = 9 ↔ x = '9' :=
      Text.digitValue_eq_iff hx (show Text.isDigit '9' = true from rfl)
    rw [hzero hc, hzero hd, hnine hc, hnine hd]
  · intro cs hspaced hleast hmost
    rw [← length_digitsOf] at hleast hmost
    obtain ⟨v, hv, hlast⟩ := exists_last_digit hleast hmost
    apply Text.existsUnique_isDigit hv
    intro c hc
    rw [isCard_append_cons_iff hc, and_iff_right ⟨hspaced, List.forall_mem_nil _⟩]
    exact hlast _ (Text.digitValue_lt_ten hc)

/-- A number with its last two digits around a dash, `0-4`. -/
theorem isCard_catchesErrors_dashed :
    (isCard "5500-0000-0000-000-4".toList = true ∧ Text.isDigit '0' = true ∧ Text.isDigit '4' = true ∧
        (∀ s ∈ ['-'], s ∈ [' ', '-']) ∧ '0' ≠ '4' ∧ IsSpaced [' ', '-'] "5500-0000-0000-000-".toList ∧
        12 ≤ "5500-0000-0000-000-".toList.countP Text.isDigit ∧
        "5500-0000-0000-000-".toList.countP Text.isDigit ≤ 18) ∧
      isCard "5500-0000-0000-000-0".toList = false ∧ ¬isCard "5500-0000-0000-004-0".toList = true ∧
      ∃! c, Text.isDigit c = true ∧ isCard ("5500-0000-0000-000-".toList ++ [c]) = true := by
  have hcard : isCard "5500-0000-0000-000-4".toList = true := by decide
  have hspaced : IsSpaced [' ', '-'] "5500-0000-0000-000-".toList := by decide
  have hleast : 12 ≤ "5500-0000-0000-000-".toList.countP Text.isDigit := by decide
  have hmost : "5500-0000-0000-000-".toList.countP Text.isDigit ≤ 18 := by decide
  obtain ⟨-, hreplaced, hexchanged, hlast⟩ := isCard_catchesErrors
  have hdash : ∀ s ∈ ['-'], s ∈ [' ', '-'] := by simp
  refine ⟨⟨hcard, rfl, rfl, hdash, by decide, hspaced, hleast, hmost⟩,
    hreplaced "5500-0000-0000-000-".toList [] '4' '0' hcard rfl rfl (by decide), ?_, hlast _ hspaced hleast hmost⟩
  have hneighbours := hexchanged "5500-0000-0000-00".toList ['-'] [] '0' '4' hcard rfl rfl hdash (by decide)
  intro haccepts
  exact absurd (hneighbours.1 haccepts) (by decide)

end FormWiring.Check
