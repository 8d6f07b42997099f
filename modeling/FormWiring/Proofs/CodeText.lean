import FormWiring.Proofs.Decimal
import FormWiring.Proofs.Identifiers
import FormWiring.Proofs.QuotedText
import FormWiring.WiringUnit.Code

/-!
# How the text of code determines it

The text of code puts a blank between two lexemes, or nothing. After most lexemes what follows is a blank or the end of
a group, so the text tells where a word or a number ends; a quoted text tells by itself. Two codes with one text can
therefore be compared from the front: what they start with in common cancels, and where they may differ, equal texts
make them equal.

Main statements: `Lexeme.word_cancel`, `Lexeme.text_cancel`, `WiringUnit.int_cancel`.
-/

set_option autoImplicit false

namespace FormWiring

namespace Code.Lexeme

/-! ## What follows a lexeme -/

/-- **Tight lexemes**: no blank stands behind them. -/
def isTight : Lexeme → Bool
  | mark _ joined => joined
  | opening .round | opening .square => true
  | _ => false

/-- **Lexemes that draw near**: no blank stands before them. -/
def drawsNear : Lexeme → Bool
  | closing .round | closing .square => true
  | _ => false

theorem isGlued_eq (a b : Lexeme) : a.isGlued b = (a.isTight || b.drawsNear) := by
  cases a with
  | mark c joined =>
    cases joined with
    | true => rfl
    | false =>
      cases b with
      | closing d => cases d <;> rfl
      | _ => rfl
  | opening d =>
    cases d with
    | round => rfl
    | square => rfl
    | curly =>
      cases b with
      | closing d => cases d <;> rfl
      | _ => rfl
  | _ =>
    cases b with
    | closing d => cases d <;> rfl
    | _ => rfl

/-- **Text that follows** a lexeme that is not tight. -/
def following : List Lexeme → List Char
  | [] => []
  | b :: rest => (if b.drawsNear then [] else [' ']) ++ textChars (b :: rest)

/-- **Text behind a lexeme**, tight or not. -/
def behind (a : Lexeme) (rest : List Lexeme) : List Char :=
  if a.isTight then textChars rest else following rest

theorem textChars_cons (a : Lexeme) (rest : List Lexeme) : textChars (a :: rest) = a.chars ++ a.behind rest := by
  unfold behind
  cases rest with
  | nil =>
    rw [textChars, textChars, following, ite_self, List.append_nil]
  | cons b rest =>
    rw [textChars, isGlued_eq]
    cases a.isTight with
    | true => rfl
    | false => rfl

theorem following_cons {b : Lexeme} (hb : b.drawsNear = false) (rest : List Lexeme) :
    following (b :: rest) = ' ' :: textChars (b :: rest) := by
  rw [following, hb, if_neg Bool.false_ne_true, List.singleton_append]

theorem textChars_append (init : List Lexeme) (a : Lexeme) (rest : List Lexeme) :
    textChars (init ++ a :: rest) = textChars (init ++ [a]) ++ a.behind rest := by
  induction init with
  | nil => rw [List.nil_append, List.nil_append, textChars_cons, textChars]
  | cons b init ih =>
    cases init with
    | nil => simp only [List.nil_append, List.cons_append, textChars, textChars_cons a rest, List.append_assoc]
    | cons c init =>
      rw [List.cons_append, List.cons_append] at ih
      simp only [List.cons_append, textChars, List.append_assoc]
      rw [ih]

/-! ## What is common cancels -/

/-- **A common front cancels**, up to what is behind its last lexeme. -/
theorem front_cancel (init : List Lexeme) (a : Lexeme) {rest rest' : List Lexeme}
    (h : textChars (init ++ a :: rest) = textChars (init ++ a :: rest')) : a.behind rest = a.behind rest' := by
  rw [textChars_append init a rest, textChars_append init a rest'] at h
  exact List.append_cancel_left h

/-- A common front cancels behind a gap as well. -/
theorem gap_front_cancel (init : List Lexeme) (a : Lexeme) {rest rest' : List Lexeme}
    (h : following (init ++ a :: rest) = following (init ++ a :: rest')) : a.behind rest = a.behind rest' := by
  have htext : textChars (init ++ a :: rest) = textChars (init ++ a :: rest') := by
    -- both start with one lexeme, so the gaps before it are the same
    cases init with
    | nil => exact List.append_cancel_left h
    | cons b init => exact List.append_cancel_left h
  exact front_cancel init a htext

/-- **Code that stands apart**: a blank stands before it. -/
def StandsApart (code : List Lexeme) : Prop :=
  ∃ b rest, code = b :: rest ∧ b.drawsNear = false

theorem following_of_standsApart {code : List Lexeme} (h : StandsApart code) (rest : List Lexeme) :
    following (code ++ rest) = ' ' :: textChars (code ++ rest) := by
  obtain ⟨b, more, rfl, hb⟩ := h
  exact following_cons hb (more ++ rest)

/-- The gaps before two codes that stand apart. -/
theorem gap_cancel {code code' : List Lexeme} (h : StandsApart code) (h' : StandsApart code') {rest rest' : List Lexeme}
    (heq : following (code ++ rest) = following (code' ++ rest')) :
    textChars (code ++ rest) = textChars (code' ++ rest') := by
  rw [following_of_standsApart h, following_of_standsApart h'] at heq
  exact (List.cons.inj heq).2

theorem standsApart_word (w : String) : StandsApart [.word w] := ⟨_, _, rfl, rfl⟩

theorem standsApart_literal (text : String) : StandsApart [.literal text] := ⟨_, _, rfl, rfl⟩

/-! ## Where words and numbers end -/

/-- **Characters that end** a word or a number: a blank, or the end of a group. -/
def ends (c : Char) : Bool :=
  c == ' ' || c == ')' || c == ']'

/-- What follows a lexeme starts with a blank or the end of a group. -/
theorem ends_of_mem_head?_following {rest : List Lexeme} : ∀ c ∈ (following rest).head?, ends c = true := by
  intro c hc
  cases rest with
  | nil => cases hc
  | cons b rest =>
    cases hb : b.drawsNear with
    | false =>
      rw [following_cons hb] at hc
      cases hc
      rfl
    | true =>
      cases b with
      | closing d =>
        rw [following, hb, if_pos rfl, List.nil_append, textChars_cons] at hc
        cases d with
        | curly => cases hb
        | round => cases hc; rfl
        | square => cases hc; rfl
      | _ => cases hb

/-- What has no end inside is determined by a text that starts with it. -/
theorem unbroken_cancel {u v rest rest' : List Char} (hu : ∀ c ∈ u, ends c = false) (hv : ∀ c ∈ v, ends c = false)
    (hrest : ∀ c ∈ rest.head?, ends c = true) (hrest' : ∀ c ∈ rest'.head?, ends c = true)
    (h : u ++ rest = v ++ rest') : u = v ∧ rest = rest' := by
  induction u generalizing v with
  | nil =>
    cases v with
    | nil => exact ⟨rfl, h⟩
    | cons d v =>
      rw [List.nil_append, List.cons_append] at h
      have hend := hrest d (by rw [h]; rfl)
      rw [hv d List.mem_cons_self] at hend
      cases hend
  | cons c u ih =>
    cases v with
    | nil =>
      rw [List.nil_append, List.cons_append] at h
      have hend := hrest' c (by rw [← h]; rfl)
      rw [hu c List.mem_cons_self] at hend
      cases hend
    | cons d v =>
      obtain ⟨rfl, htail⟩ := List.cons.inj h
      obtain ⟨rfl, hsame⟩ := ih (fun x hx => hu x (List.mem_cons_of_mem c hx))
        (fun x hx => hv x (List.mem_cons_of_mem c hx)) htail
      exact ⟨rfl, hsame⟩

/-- **Unbroken texts**: nothing in them ends a word. -/
def isUnbroken (s : String) : Bool :=
  s.toList.all fun c => !ends c

theorem ends_of_isUnbroken {s : String} (h : isUnbroken s = true) : ∀ c ∈ s.toList, ends c = false := by
  intro c hc
  have hnot := List.all_eq_true.1 h c hc
  simpa using hnot

/-- Words are unbroken. -/
theorem isUnbroken_of_isWord {s : String} (h : IsWord s.toList) : isUnbroken s = true := by
  -- the characters that end a word are no name characters
  have hnone : ∀ c, ends c = true → ¬ (c = '#' ∨ startsName c = true ∨ Text.isNameChar c = true) := by
    intro c hends
    unfold ends at hends
    rw [Bool.or_eq_true, Bool.or_eq_true] at hends
    rcases hends with (h | h) | h <;> rw [eq_of_beq h] <;> decide
  refine List.all_eq_true.2 fun c hc => ?_
  have hchars := h.forall_mem c hc
  cases hends : ends c with
  | false => rfl
  | true => exact absurd hchars (hnone c hends)

/-- **Words at the front of equal texts** are equal. -/
theorem word_cancel {v w : String} (hv : isUnbroken v = true) (hw : isUnbroken w = true) {rest rest' : List Lexeme}
    (h : textChars (.word v :: rest) = textChars (.word w :: rest')) : v = w ∧ following rest = following rest' := by
  rw [textChars_cons, textChars_cons] at h
  obtain ⟨hsame, hrest⟩ := unbroken_cancel (ends_of_isUnbroken hv) (ends_of_isUnbroken hw) ends_of_mem_head?_following
    ends_of_mem_head?_following h
  exact ⟨String.toList_inj.1 hsame, hrest⟩

/-- Different words start different texts. -/
theorem words_ne {v w : String} (h : v ≠ w) (hv : isUnbroken v = true) (hw : isUnbroken w = true)
    (rest rest' : List Lexeme) : following (.word v :: rest) ≠ following (.word w :: rest') := by
  intro heq
  have htext := gap_cancel (standsApart_word v) (standsApart_word w) heq
  exact h (word_cancel hv hw htext).1

theorem ends_of_mem_toString (n : Nat) : ∀ c ∈ (toString n).toList, ends c = false := by
  intro c hc
  rw [Text.toList_toString] at hc
  have hdigit := List.all_eq_true.1 (Text.all_isDigit_toDigits n) c hc
  cases hends : ends c with
  | false => rfl
  | true =>
    unfold ends at hends
    rw [Bool.or_eq_true, Bool.or_eq_true] at hends
    rcases hends with (h | h) | h <;> rw [eq_of_beq h] at hdigit <;> cases hdigit

/-- **Numbers at the front of equal texts** are equal. -/
theorem number_cancel {m n : Nat} {rest rest' : List Lexeme}
    (h : textChars (.literal (toString m) :: rest) = textChars (.literal (toString n) :: rest')) :
    m = n ∧ following rest = following rest' := by
  rw [textChars_cons, textChars_cons] at h
  obtain ⟨hsame, hrest⟩ := unbroken_cancel (ends_of_mem_toString m) (ends_of_mem_toString n)
    ends_of_mem_head?_following ends_of_mem_head?_following h
  rw [Text.toList_toString, Text.toList_toString] at hsame
  refine ⟨?_, hrest⟩
  rw [← Text.digitsValue_toDigits m, hsame, Text.digitsValue_toDigits]

/-- **Quoted texts at the front of equal texts** are equal, whatever they hold. -/
theorem text_cancel {s t : String} {rest rest' : List Lexeme}
    (h : textChars (.literal (Text.quoteLiteral s) :: rest) = textChars (.literal (Text.quoteLiteral t) :: rest')) :
    s = t ∧ following rest = following rest' := by
  rw [textChars_cons, textChars_cons] at h
  exact quoted_cancel h

end Code.Lexeme

namespace WiringUnit

open Code Code.Lexeme

/-- A number does not start with a minus. -/
theorem textChars_number_ne_minus (n : Nat) (rest more : List Lexeme) :
    textChars (.literal (toString n) :: rest) ≠ textChars (.mark '-' false :: more) := by
  intro h
  rw [textChars_cons, textChars_cons] at h
  change (toString n).toList ++ following rest = ['-'] ++ following more at h
  rw [Text.toList_toString] at h
  have hdigits := Text.all_isDigit_toDigits n
  cases hlist : Nat.toDigits 10 n with
  | nil => exact Nat.toDigits_ne_nil hlist
  | cons c cs =>
    rw [hlist] at h hdigits
    rw [(List.cons.inj h).1] at hdigits
    cases hdigits

theorem standsApart_intCode (n : Int) : StandsApart (intCode n) := by
  unfold intCode
  split
  · exact ⟨_, _, rfl, rfl⟩
  · exact standsApart_literal _

/-- **Integers at the front of equal texts** are equal, the sign included. -/
theorem int_cancel {m n : Int} {rest rest' : List Lexeme}
    (h : textChars (intCode m ++ rest) = textChars (intCode n ++ rest')) :
    m = n ∧ following rest = following rest' := by
  unfold intCode at h
  by_cases hm : m < 0
  · by_cases hn : n < 0
    · rw [if_pos hm, if_pos hn] at h
      have hmagnitude := gap_cancel (standsApart_literal _) (standsApart_literal _) (front_cancel [] _ h)
      obtain ⟨hsame, hrest⟩ := number_cancel hmagnitude
      exact ⟨by omega, hrest⟩
    · rw [if_pos hm, if_neg hn] at h
      exact absurd h.symm (textChars_number_ne_minus _ _ _)
  · by_cases hn : n < 0
    · rw [if_neg hm, if_pos hn] at h
      exact absurd h (textChars_number_ne_minus _ _ _)
    · rw [if_neg hm, if_neg hn] at h
      obtain ⟨hsame, hrest⟩ := number_cancel h
      exact ⟨by omega, hrest⟩

end WiringUnit

end FormWiring
