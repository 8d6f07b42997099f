import FormWiring.Check.Document
import FormWiring.Proofs.Decimal
import Mathlib.Algebra.GroupWithZero.Nat
import Mathlib.Logic.ExistsUnique

/-!
# Digits between separators

A document number is read from the digits of a text once its separators are dropped, and any other character spoils it.
So a test of the digits says all there is to say about a text of digits and separators, wherever the separators stand.

Main definitions: `Check.IsSpaced`, `Check.digitsOf`. Main statement: `any_digits?_iff`.
-/

set_option autoImplicit false

namespace FormWiring

namespace Text

variable {c d : Char}

theorem bounds_of_isDigit (h : isDigit c = true) : 48 ≤ c.toNat ∧ c.toNat ≤ 57 := by
  unfold isDigit at h
  rw [Bool.and_eq_true, decide_eq_true_eq, decide_eq_true_eq] at h
  exact h

theorem digitValue_lt_ten (h : isDigit c = true) : digitValue c < 10 := by
  have hbounds := bounds_of_isDigit h
  rw [digitValue_of_isDigit h, show '0'.toNat = 48 from rfl]
  omega

theorem eq_of_digitValue_eq (hc : isDigit c = true) (hd : isDigit d = true) (h : digitValue c = digitValue d) :
    c = d := by
  have hcBounds := bounds_of_isDigit hc
  have hdBounds := bounds_of_isDigit hd
  rw [digitValue_of_isDigit hc, digitValue_of_isDigit hd, show '0'.toNat = 48 from rfl] at h
  apply Char.toNat_inj.1
  omega

theorem digitValue_eq_iff (hc : isDigit c = true) (hd : isDigit d = true) : digitValue c = digitValue d ↔ c = d :=
  ⟨eq_of_digitValue_eq hc hd, fun h => congrArg digitValue h⟩

/-- Each value below ten is that of a digit. -/
theorem exists_isDigit {n : Nat} (h : n < 10) : ∃ c, isDigit c = true ∧ digitValue c = n := by
  have hdigit : isDigit n.digitChar = true := by
    rw [isDigit_iff, Nat.isDigit_digitChar]
    exact decide_eq_true h
  refine ⟨n.digitChar, hdigit, ?_⟩
  rw [digitValue_of_isDigit hdigit, Nat.toNat_digitChar_of_lt_ten h]
  exact Nat.add_sub_cancel_left 48 n

/-- A property of digits that asks for one value is that of one digit. -/
theorem existsUnique_isDigit {P : Char → Prop} {n : Nat} (hn : n < 10)
    (h : ∀ c, isDigit c = true → (P c ↔ digitValue c = n)) : ∃! c, isDigit c = true ∧ P c := by
  obtain ⟨c, hc, rfl⟩ := exists_isDigit hn
  refine ⟨c, ⟨hc, (h c hc).2 rfl⟩, ?_⟩
  rintro d ⟨hd, hPd⟩
  exact eq_of_digitValue_eq hd hc ((h d hd).1 hPd)

end Text

namespace Check

/-! ## Texts -/

/-- **Spaced digits**: digits and separators in any order, and nothing else. -/
def IsSpaced (separators cs : List Char) : Prop :=
  ∀ c ∈ cs, Text.isDigit c = true ∨ c ∈ separators

/-- All characters are tried. -/
instance (separators cs : List Char) : Decidable (IsSpaced separators cs) :=
  decidable_of_iff ((cs.all fun c => Text.isDigit c || separators.contains c) = true) (by simp [IsSpaced])

/-- **Values of the digits** of a text, in order. -/
def digitsOf (cs : List Char) : List Nat :=
  (cs.filter Text.isDigit).map Text.digitValue

/-- **Significant characters**: those that are no separators. -/
def significant (separators cs : List Char) : List Char :=
  cs.filter fun c => !separators.contains c

variable {separators cs before after : List Char} {c : Char} {ds : List Nat}

theorem isSpaced_append_iff :
    IsSpaced separators (before ++ after) ↔ IsSpaced separators before ∧ IsSpaced separators after :=
  List.forall_mem_append

theorem isSpaced_cons_iff :
    IsSpaced separators (c :: cs) ↔ (Text.isDigit c = true ∨ c ∈ separators) ∧ IsSpaced separators cs :=
  List.forall_mem_cons

/-- A digit in a text is no matter. -/
theorem isSpaced_append_cons_iff (h : Text.isDigit c = true) :
    IsSpaced separators (before ++ c :: after) ↔ IsSpaced separators before ∧ IsSpaced separators after := by
  rw [isSpaced_append_iff, isSpaced_cons_iff]
  simp [h]

@[simp] theorem digitsOf_append : digitsOf (before ++ after) = digitsOf before ++ digitsOf after := by
  unfold digitsOf
  rw [List.filter_append, List.map_append]

@[simp] theorem digitsOf_cons (h : Text.isDigit c = true) : digitsOf (c :: cs) = Text.digitValue c :: digitsOf cs := by
  unfold digitsOf
  rw [List.filter_cons_of_pos h, List.map_cons]

theorem digitsOf_eq_nil (h : ∀ c ∈ cs, Text.isDigit c = false) : digitsOf cs = [] := by
  unfold digitsOf
  rw [List.map_eq_nil_iff, List.filter_eq_nil_iff]
  intro c hc
  rw [h c hc]
  exact Bool.false_ne_true

theorem length_digitsOf : (digitsOf cs).length = cs.countP Text.isDigit := by
  unfold digitsOf
  rw [List.length_map, List.countP_eq_length_filter]

theorem lt_ten_of_mem_digitsOf {d : Nat} (h : d ∈ digitsOf cs) : d < 10 := by
  obtain ⟨c, hc, rfl⟩ := List.mem_map.1 h
  exact Text.digitValue_lt_ten (List.mem_filter.1 hc).2

@[simp] theorem significant_append :
    significant separators (before ++ after) = significant separators before ++ significant separators after :=
  List.filter_append before after

@[simp] theorem significant_cons (h : c ∉ separators) :
    significant separators (c :: cs) = c :: significant separators cs :=
  List.filter_cons_of_pos (by simp [h])

@[simp] theorem significant_cons_of_mem (h : c ∈ separators) :
    significant separators (c :: cs) = significant separators cs :=
  List.filter_cons_of_neg (by simp [h])

/-- They are those before a character, itself, and those after. -/
theorem length_significant_append_cons (h : c ∉ separators) :
    (significant separators (before ++ c :: after)).length =
      (significant separators before).length + (significant separators after).length + 1 := by
  rw [significant_append, significant_cons h, List.length_append, List.length_cons, Nat.add_assoc]

/-- One character in place of another leaves their number. -/
theorem length_significant_replaced {d : Char} (hc : c ∉ separators) (hd : d ∉ separators) :
    (significant separators (before ++ d :: after)).length =
      (significant separators (before ++ c :: after)).length := by
  rw [length_significant_append_cons hd, length_significant_append_cons hc]

/-! ## Reading -/

theorem mapM_digit?_eq_some_iff :
    cs.mapM digit? = some ds ↔ (∀ c ∈ cs, Text.isDigit c = true) ∧ cs.map Text.digitValue = ds := by
  induction cs generalizing ds with
  | nil => simp
  | cons c cs ih =>
    rw [List.mapM_cons, List.forall_mem_cons, List.map_cons]
    by_cases hc : Text.isDigit c = true
    · cases hrest : cs.mapM digit? with
      | none =>
        have hnone : ¬ ∀ c ∈ cs, Text.isDigit c = true := fun hall => nomatch hrest.symm.trans (ih.2 ⟨hall, rfl⟩)
        simp [digit?, hc, hnone]
      | some rest =>
        obtain ⟨hall, hmap⟩ := ih.1 hrest
        have hread : digit? c = some (Text.digitValue c) := if_pos hc
        rw [hread, hmap]
        exact ⟨fun h => ⟨⟨hc, hall⟩, Option.some.inj h⟩, fun h => congrArg some h.2⟩
    · simp [digit?, hc]

/-- A digit is no separator when no separator is a digit. -/
theorem not_mem_of_isDigit (hseparators : separators.any Text.isDigit = false) (h : Text.isDigit c = true) :
    c ∉ separators := by
  intro hmem
  exact List.any_eq_false.1 hseparators c hmem h

/-- Separators that are no digits leave the digits of a text when they are dropped, if there is nothing else. -/
theorem significant_eq_filter (hseparators : separators.any Text.isDigit = false)
    (hspaced : IsSpaced separators cs) : significant separators cs = cs.filter Text.isDigit := by
  refine List.filter_congr ?_
  intro c hc
  rcases hspaced c hc with hdigit | hseparator
  · have hnot : c ∉ separators := not_mem_of_isDigit hseparators hdigit
    simp [hdigit, hnot]
  · simp [hseparator, List.any_eq_false.1 hseparators c hseparator]

theorem forall_mem_significant_iff :
    (∀ c ∈ significant separators cs, Text.isDigit c = true) ↔ IsSpaced separators cs := by
  unfold significant IsSpaced
  simp only [List.mem_filter, Bool.not_eq_true', List.contains_eq_mem, decide_eq_false_iff_not]
  refine forall_congr' fun c => ?_
  rw [and_imp]
  refine imp_congr_right fun _ => ?_
  rw [or_comm]
  exact Decidable.or_iff_not_imp_left.symm

theorem length_significant (hseparators : separators.any Text.isDigit = false)
    (hspaced : IsSpaced separators cs) : (significant separators cs).length = cs.countP Text.isDigit := by
  rw [significant_eq_filter hseparators hspaced, List.countP_eq_length_filter]

theorem digits?_eq_some_iff (hseparators : separators.any Text.isDigit = false) :
    digits? separators cs = some ds ↔ IsSpaced separators cs ∧ digitsOf cs = ds := by
  have hread : digits? separators cs = (significant separators cs).mapM digit? := rfl
  rw [hread, mapM_digit?_eq_some_iff, forall_mem_significant_iff]
  refine and_congr_right fun hspaced => ?_
  rw [significant_eq_filter hseparators hspaced]
  rfl

/-- **A test of what is read** from a text is a test of its digits, once there is nothing but digits and separators. -/
theorem any_digits?_iff (hseparators : separators.any Text.isDigit = false) {test : List Nat → Bool} :
    (digits? separators cs).any test = true ↔ IsSpaced separators cs ∧ test (digitsOf cs) = true := by
  rw [Option.any_eq_true]
  simp only [digits?_eq_some_iff hseparators]
  constructor
  · rintro ⟨_, ⟨hspaced, rfl⟩, htest⟩
    exact ⟨hspaced, htest⟩
  · rintro ⟨hspaced, htest⟩
    exact ⟨_, ⟨hspaced, rfl⟩, htest⟩

/-! ## Weighted sums -/

theorem weightedSum_eq_sum (ds weights : List Nat) : weightedSum ds weights = (ds.zipWith (· * ·) weights).sum := by
  unfold weightedSum
  exact List.sum_eq_foldl.symm

end Check

end FormWiring
