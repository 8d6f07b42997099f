import FormWiring.Proofs.SeparatedDigits
import Mathlib.Data.List.Basic

/-!
# Check digits of taxpayer numbers

Both taxpayer numbers end in two check digits modulo eleven, each from a weighted sum of the digits before it, and a
number of equal digits is refused. The check digits leave one way to end a number, unless that way makes all digits the
same. For persons this happens whenever the digits before are equal, for companies only when they are all zero.

Main definition: `Check.HasCheckDigits`. Main statement: `taxpayerNumbers_haveCheckDigits`.
-/

set_option autoImplicit false

namespace FormWiring.Check

/-! ## The law -/

/-- **Law of two check digits** for a recogniser of numbers, with the weights of the first and of the second, and the
digits before them that are barred. -/
structure HasCheckDigits (accepts : List Char → Bool) (separators : List Char) (first second : List Nat)
    (Barred : List Nat → Prop) : Prop where
  /-- A separator may be put in or taken out anywhere. -/
  separated : ∀ before after, ∀ s ∈ separators, accepts (before ++ s :: after) = accepts (before ++ after)
  /-- Any other character that is no digit spoils the number. -/
  foreign : ∀ cs, ∀ c ∈ cs, Text.isDigit c = false → c ∉ separators → accepts cs = false
  /-- So does a digit too many or too few. -/
  counted : ∀ cs, cs.countP Text.isDigit ≠ first.length + 2 → accepts cs = false
  /-- Digits that are not barred have one pair of digits to end with. -/
  unique : ∀ cs, IsSpaced separators cs → cs.countP Text.isDigit = first.length → ¬Barred (digitsOf cs) →
    ∃! p : Char × Char, Text.isDigit p.1 = true ∧ Text.isDigit p.2 = true ∧ accepts (cs ++ [p.1, p.2]) = true
  /-- Digits that are barred have none. -/
  barred : ∀ cs, cs.countP Text.isDigit = first.length → Barred (digitsOf cs) →
    ∀ c d, accepts (cs ++ [c, d]) = false
  /-- The digits at the end come from the weighted sums of those before. -/
  digits : ∀ cs, accepts cs = true → ∃ ds a b, digitsOf cs = ds ++ [a, b] ∧ ds.length = first.length ∧
    a = 10 * (ds.zipWith (· * ·) first).sum % 11 % 10 ∧
    b = 10 * ((ds ++ [a]).zipWith (· * ·) second).sum % 11 % 10

/-! ## Check digits -/

variable {first second ds : List Nat}

theorem checkDigit_eq (sum : Nat) : checkDigit sum = 10 * sum % 11 % 10 := by
  have hmod : 10 * sum % 11 = 10 * (sum % 11) % 11 := by
    rw [Nat.mul_mod, Nat.mul_mod 10 (sum % 11), Nat.mod_mod]
  have htable : ∀ r < 11, (if r ≤ 1 then 0 else 11 - r) = 10 * r % 11 % 10 := by decide
  rw [hmod]
  exact htable _ (Nat.mod_lt sum (by decide))

theorem checkDigit_lt_ten (sum : Nat) : checkDigit sum < 10 := by
  rw [checkDigit_eq]
  exact Nat.mod_lt _ (by decide)

/-- **First check digit.** -/
def firstDigit (first ds : List Nat) : Nat :=
  checkDigit (weightedSum ds first)

/-- **Second check digit**, after the first. -/
def secondDigit (first second ds : List Nat) : Nat :=
  checkDigit (weightedSum (ds ++ [firstDigit first ds]) second)

/-- **Digits with their check digits.** -/
def completed (first second ds : List Nat) : List Nat :=
  ds ++ [firstDigit first ds, secondDigit first second ds]

theorem length_completed : (completed first second ds).length = ds.length + 2 := by
  unfold completed
  rw [List.length_append]
  rfl

theorem allSame_iff : allSame ds = true ↔ ∃ d, ∀ e ∈ ds, e = d := by
  cases ds with
  | nil => simp [allSame]
  | cons d rest =>
    unfold allSame
    simp only [List.all_eq_true, beq_iff_eq]
    constructor
    · intro h
      exact ⟨d, List.forall_mem_cons.2 ⟨rfl, h⟩⟩
    · rintro ⟨e, h⟩ x hx
      obtain ⟨hd, hrest⟩ := List.forall_mem_cons.1 h
      rw [hd, hrest x hx]

/-- **The test of a number** asks for digits with their check digits, which are not all the same. -/
theorem endsInCheckDigits_append_iff (first second ds : List Nat) (a b : Nat) :
    endsInCheckDigits (ds.length + 2) first second (ds ++ [a, b]) = true ↔
      ds ++ [a, b] = completed first second ds ∧ ¬allSame (ds ++ [a, b]) = true := by
  have hlength : (ds ++ [a, b]).length = ds.length + 2 := by
    rw [List.length_append]
    rfl
  have hfirst : (ds ++ [a, b])[ds.length]? = some a := by
    rw [List.getElem?_append_right (Nat.le_refl _), Nat.sub_self]
    rfl
  have hsecond : (ds ++ [a, b])[ds.length + 1]? = some b := by
    rw [List.getElem?_append_right (Nat.le_add_right _ 1), Nat.add_sub_cancel_left]
    rfl
  have hfront : (ds ++ [a, b]).take (ds.length + 1) = ds ++ [a] := by
    rw [List.take_length_add_append]
    rfl
  unfold endsInCheckDigits completed
  rw [show ds.length + 2 - 2 = ds.length from rfl, show ds.length + 2 - 1 = ds.length + 1 from rfl, hlength, hfirst,
    hsecond, hfront, List.take_left, List.append_cancel_left_eq]
  simp only [Bool.and_eq_true, beq_iff_eq, Bool.not_eq_true', Bool.not_eq_true, Option.some.injEq, List.cons.injEq,
    and_true, true_and]
  constructor
  · rintro ⟨⟨hsame, rfl⟩, hb⟩
    exact ⟨⟨rfl, hb⟩, hsame⟩
  · rintro ⟨⟨rfl, hb⟩, hsame⟩
    exact ⟨⟨hsame, rfl⟩, hb⟩

theorem endsInCheckDigits_iff {number : List Nat} {n : Nat} :
    endsInCheckDigits (n + 2) first second number = true ↔
      ∃ ds, ds.length = n ∧ number = completed first second ds ∧ ¬allSame number = true := by
  constructor
  · intro h
    have hlength : number.length = n + 2 := by
      unfold endsInCheckDigits at h
      simp only [Bool.and_eq_true, beq_iff_eq] at h
      exact h.1.1.1
    have hds : (number.take n).length = n := by
      rw [List.length_take]
      omega
    have hend : (number.drop n).length = 2 := by
      rw [List.length_drop]
      omega
    obtain ⟨a, b, hab⟩ := List.length_eq_two.1 hend
    have hnumber : number.take n ++ [a, b] = number := by rw [← hab, List.take_append_drop]
    have htest := endsInCheckDigits_append_iff first second (number.take n) a b
    rw [hds, hnumber] at htest
    exact ⟨number.take n, hds, htest.1 h⟩
  · rintro ⟨ds, rfl, rfl, hsame⟩
    exact (endsInCheckDigits_append_iff first second ds _ _).2 ⟨rfl, hsame⟩

/-! ## Numbers read from texts -/

section Reading

variable {separators cs : List Char} {Barred : List Nat → Prop}

/-- **Recogniser of numbers** that end in two check digits. -/
def readsCheckDigits (separators : List Char) (first second : List Nat) (cs : List Char) : Bool :=
  (digits? separators cs).any (endsInCheckDigits (first.length + 2) first second)

theorem readsCheckDigits_iff (hseparators : separators.any Text.isDigit = false) :
    readsCheckDigits separators first second cs = true ↔ IsSpaced separators cs ∧
      ∃ ds, ds.length = first.length ∧ digitsOf cs = completed first second ds ∧ ¬allSame (digitsOf cs) = true := by
  unfold readsCheckDigits
  rw [any_digits?_iff hseparators, endsInCheckDigits_iff]

theorem readsCheckDigits_separated (before after : List Char) {s : Char} (hs : s ∈ separators) :
    readsCheckDigits separators first second (before ++ s :: after) =
      readsCheckDigits separators first second (before ++ after) := by
  unfold readsCheckDigits digits?
  rw [List.filter_append, List.filter_append, List.filter_cons_of_neg (by simp [hs])]

/-- What is read from digits with two more at their end. -/
theorem digits_before_pair {c d : Char} (hcs : cs.countP Text.isDigit = first.length)
    (hds : ds.length = first.length) (h : digitsOf (cs ++ [c, d]) = completed first second ds) :
    digitsOf cs = ds ∧ digitsOf [c, d] = [firstDigit first ds, secondDigit first second ds] := by
  rw [digitsOf_append] at h
  exact List.append_inj h (by rw [length_digitsOf, hcs, hds])

/-- **Numbers read** obey the law when the digits that are barred are those whose check digits make all the same. -/
theorem readsCheckDigits_haveCheckDigits (hseparators : separators.any Text.isDigit = false)
    (hbarred : ∀ ds, ds.length = first.length → (∀ d ∈ ds, d < 10) →
      (Barred ds ↔ allSame (completed first second ds) = true)) :
    HasCheckDigits (readsCheckDigits separators first second) separators first second Barred where
  separated before after s hs := readsCheckDigits_separated before after hs
  foreign := by
    intro cs c hc hdigit hseparator
    rw [Bool.eq_false_iff, ne_eq, readsCheckDigits_iff hseparators]
    rintro ⟨hspaced, -⟩
    rcases hspaced c hc with h | h
    · exact nomatch hdigit.symm.trans h
    · exact hseparator h
  counted := by
    intro cs hcount
    rw [Bool.eq_false_iff, ne_eq, readsCheckDigits_iff hseparators]
    rintro ⟨-, ds, hds, hread, -⟩
    rw [← length_digitsOf, hread, length_completed, hds] at hcount
    exact hcount rfl
  unique := by
    intro cs hspaced hcount hfree
    have hlength : (digitsOf cs).length = first.length := length_digitsOf.trans hcount
    rw [hbarred _ hlength fun d => lt_ten_of_mem_digitsOf] at hfree
    obtain ⟨a, ha, hfirst⟩ := Text.exists_isDigit (checkDigit_lt_ten (weightedSum (digitsOf cs) first))
    obtain ⟨b, hb, hsecond⟩ := Text.exists_isDigit
      (checkDigit_lt_ten (weightedSum (digitsOf cs ++ [firstDigit first (digitsOf cs)]) second))
    have hpair : digitsOf [a, b] = [firstDigit first (digitsOf cs), secondDigit first second (digitsOf cs)] := by
      rw [digitsOf_cons ha, digitsOf_cons hb, hfirst, hsecond]
      rfl
    have hread : digitsOf (cs ++ [a, b]) = completed first second (digitsOf cs) := by
      rw [digitsOf_append, hpair]
      rfl
    refine ⟨(a, b), ⟨ha, hb, ?_⟩, ?_⟩
    · rw [readsCheckDigits_iff hseparators]
      refine ⟨isSpaced_append_iff.2 ⟨hspaced, ?_⟩, digitsOf cs, hlength, hread, by rwa [hread]⟩
      exact isSpaced_cons_iff.2 ⟨.inl ha, isSpaced_cons_iff.2 ⟨.inl hb, List.forall_mem_nil _⟩⟩
    · rintro ⟨c, d⟩ ⟨hc, hd, haccepts⟩
      dsimp only at hc hd haccepts
      obtain ⟨-, ds, hds, hnumber, -⟩ := (readsCheckDigits_iff hseparators).1 haccepts
      obtain ⟨rfl, hends⟩ := digits_before_pair hcount hds hnumber
      rw [← hpair, digitsOf_cons hc, digitsOf_cons hd, digitsOf_cons ha, digitsOf_cons hb] at hends
      obtain ⟨hca, hdb⟩ := List.cons.inj hends
      rw [Text.eq_of_digitValue_eq hc ha hca, Text.eq_of_digitValue_eq hd hb (List.cons.inj hdb).1]
  barred := by
    intro cs hcount hbarredCs c d
    rw [Bool.eq_false_iff, ne_eq, readsCheckDigits_iff hseparators]
    rintro ⟨-, ds, hds, hread, hsame⟩
    obtain ⟨rfl, -⟩ := digits_before_pair hcount hds hread
    rw [hread] at hsame
    exact hsame ((hbarred _ hds fun d => lt_ten_of_mem_digitsOf).1 hbarredCs)
  digits := by
    intro cs haccepts
    obtain ⟨-, ds, hds, hread, -⟩ := (readsCheckDigits_iff hseparators).1 haccepts
    refine ⟨ds, _, _, hread, hds, ?_, ?_⟩
    · rw [firstDigit, checkDigit_eq, weightedSum_eq_sum]
    · rw [secondDigit, checkDigit_eq, weightedSum_eq_sum]

end Reading

/-! ## The two numbers -/

/-- Equal digits bring forth check digits for persons that equal them. -/
theorem allSame_completed_person_iff (hds : ds.length = 9) (hlt : ∀ d ∈ ds, d < 10) :
    (∃ d, ∀ e ∈ ds, e = d) ↔
      allSame (completed [10, 9, 8, 7, 6, 5, 4, 3, 2] [11, 10, 9, 8, 7, 6, 5, 4, 3, 2] ds) = true := by
  have htable : ∀ d < 10, allSame (completed [10, 9, 8, 7, 6, 5, 4, 3, 2] [11, 10, 9, 8, 7, 6, 5, 4, 3, 2]
      (List.replicate 9 d)) = true := by
    decide
  constructor
  · rintro ⟨d, hd⟩
    obtain rfl := List.eq_replicate_iff.2 ⟨hds, hd⟩
    exact htable d (hlt d (List.mem_replicate.2 ⟨by decide, rfl⟩))
  · intro h
    obtain ⟨d, hd⟩ := allSame_iff.1 h
    exact ⟨d, fun e he => hd e (List.mem_append_left _ he)⟩

/-- Of equal digits only zeros bring forth check digits for companies that equal them. -/
theorem allSame_completed_company_iff (hds : ds.length = 12) (hlt : ∀ d ∈ ds, d < 10) :
    (∀ e ∈ ds, e = 0) ↔ allSame (completed [5, 4, 3, 2, 9, 8, 7, 6, 5, 4, 3, 2]
      [6, 5, 4, 3, 2, 9, 8, 7, 6, 5, 4, 3, 2] ds) = true := by
  have htable : ∀ d < 10, (allSame (completed [5, 4, 3, 2, 9, 8, 7, 6, 5, 4, 3, 2]
      [6, 5, 4, 3, 2, 9, 8, 7, 6, 5, 4, 3, 2] (List.replicate 12 d)) = true ↔ d = 0) := by
    decide
  constructor
  · intro h
    obtain rfl := List.eq_replicate_iff.2 ⟨hds, h⟩
    exact (htable 0 (by decide)).2 rfl
  · intro h
    obtain ⟨d, hd⟩ := allSame_iff.1 h
    have hsame : ∀ e ∈ ds, e = d := fun e he => hd e (List.mem_append_left _ he)
    obtain rfl := List.eq_replicate_iff.2 ⟨hds, hsame⟩
    have hmem : d ∈ List.replicate 12 d := List.mem_replicate.2 ⟨by decide, rfl⟩
    obtain rfl := (htable d (hlt d hmem)).1 h
    exact hsame

/-- **Taxpayer numbers have check digits.** Separators do not matter, and there is exactly one way to end nine digits of
a person or twelve of a company: by the digits that the weighted sums give. Nine equal digits of a person and twelve
zeros of a company have no end. -/
theorem taxpayerNumbers_haveCheckDigits :
    HasCheckDigits isCpf ['.', '-', ' '] [10, 9, 8, 7, 6, 5, 4, 3, 2] [11, 10, 9, 8, 7, 6, 5, 4, 3, 2]
        (fun ds => ∃ d, ∀ e ∈ ds, e = d) ∧
      HasCheckDigits isCnpj ['.', '-', '/', ' '] [5, 4, 3, 2, 9, 8, 7, 6, 5, 4, 3, 2]
        [6, 5, 4, 3, 2, 9, 8, 7, 6, 5, 4, 3, 2] (fun ds => ∀ e ∈ ds, e = 0) := by
  have hperson : isCpf = readsCheckDigits ['.', '-', ' '] [10, 9, 8, 7, 6, 5, 4, 3, 2]
      [11, 10, 9, 8, 7, 6, 5, 4, 3, 2] := rfl
  have hcompany : isCnpj = readsCheckDigits ['.', '-', '/', ' '] [5, 4, 3, 2, 9, 8, 7, 6, 5, 4, 3, 2]
      [6, 5, 4, 3, 2, 9, 8, 7, 6, 5, 4, 3, 2] := rfl
  rw [hperson, hcompany]
  exact ⟨readsCheckDigits_haveCheckDigits rfl fun ds => allSame_completed_person_iff,
    readsCheckDigits_haveCheckDigits rfl fun ds => allSame_completed_company_iff⟩

example : isCpf "529.982.247-25".toList = true ∧ isCpf "111.111.111-11".toList = false ∧
    isCnpj "11.222.333/0001-81".toList = true := by decide

end FormWiring.Check
