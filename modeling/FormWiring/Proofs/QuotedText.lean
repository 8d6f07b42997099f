import FormWiring.Code.Literal
import Mathlib.Data.Nat.Digits.Lemmas

/-!
# Quoted text read back

A quoted code literal gives its text back, whatever the text holds: quotes, backslashes, line ends, a NUL before a
digit, characters that are written by number. Reading consumes one escape for each character, so the text that follows
the closing quote is known as well, and two quoted texts at the front of equal texts are the same.

Main statements: `Code.textValue?_quoteLiteral`, `Code.quoted_cancel`.
-/

set_option autoImplicit false

namespace FormWiring

/-! ## Numbers in base sixteen -/

namespace Text

theorem digitValue_digitChar : ∀ n < 16, isHexDigit n.digitChar = true ∧ digitValue n.digitChar = n := by
  decide

theorem all_isHexDigit_hexDigits (n : Nat) : (hexDigits n).all isHexDigit = true := by
  unfold hexDigits
  induction n using Nat.strongRecOn with
  | ind n ih =>
    rw [Nat.toDigits_eq_if (by decide)]
    split
    · next hn => rw [List.all_cons, (digitValue_digitChar n hn).1, List.all_nil, Bool.and_true]
    · have hlast := (digitValue_digitChar (n % 16) (Nat.mod_lt n (by decide))).1
      rw [List.all_append, ih (n / 16) (by omega), List.all_cons, hlast, List.all_nil]
      rfl

/-- The digits of a number are worth that number. -/
theorem digitsValue_hexDigits (n : Nat) : digitsValue 16 (hexDigits n) = n := by
  unfold hexDigits digitsValue digitsValueFrom
  induction n using Nat.strongRecOn with
  | ind n ih =>
    rw [Nat.toDigits_eq_if (by decide)]
    split
    · next hn => rw [List.foldl_cons, List.foldl_nil, (digitValue_digitChar n hn).2, Nat.zero_mul, Nat.zero_add]
    · have hlast := (digitValue_digitChar (n % 16) (Nat.mod_lt n (by decide))).2
      rw [List.foldl_append, ih (n / 16) (by omega), List.foldl_cons, List.foldl_nil, hlast]
      omega

/-- Six digits are enough for a character. -/
theorem length_hexDigits_le (c : Char) : (hexDigits c.toNat).length ≤ 6 := by
  have hc : c.toNat < 16 ^ 6 := by
    rcases c.valid with h | ⟨-, h⟩
    · exact Nat.lt_trans h (by decide)
    · exact Nat.lt_trans h (by decide)
  exact (Nat.length_toDigits_le_iff (by decide) (by decide)).2 hc

end Text

namespace Code

open Text (isHexDigit digitsValueFrom hexDigits escapeChar escapeLiteral quoteLiteral)

/-! ## Escapes -/

/-- Digits in front of a closing brace are read to the end. -/
theorem escapeBraced?_digits {digits : List Char} (rest : List Char) (hdigits : digits.all isHexDigit = true)
    (value count : Nat) (hmost : count + digits.length ≤ 6) (hsome : 0 < count + digits.length) :
    escapeBraced? value count (digits ++ '\x7d' :: rest) =
      escapeBraced? (digitsValueFrom 16 value digits) (count + digits.length) ('\x7d' :: rest) := by
  induction digits generalizing value count with
  | nil => rfl
  | cons c digits ih =>
    rw [List.all_cons, Bool.and_eq_true] at hdigits
    rw [List.length_cons] at hmost
    have hcount : (count == 6) = false := beq_eq_false_iff_ne.2 (by omega)
    rw [List.cons_append, escapeBraced?, if_pos hdigits.1, hcount, if_neg Bool.false_ne_true,
      ih hdigits.2 (value * 16 + Text.digitValue c) (count + 1) (by omega) (by omega)]
    congr 1
    rw [List.length_cons]
    omega

/-- A character written by number is read back. -/
theorem escapeNumbered?_hexDigits (c : Char) (rest : List Char) :
    escapeNumbered? ('\x7b' :: (hexDigits c.toNat ++ '\x7d' :: rest)) = some (c.toNat, rest) := by
  have hpos : 0 < (hexDigits c.toNat).length := Nat.length_toDigits_pos
  have hvalid : (decide (c.toNat < 0xD800) || (decide (0xE000 ≤ c.toNat) && decide (c.toNat < 0x110000))) = true := by
    rw [Bool.or_eq_true, Bool.and_eq_true, decide_eq_true_eq, decide_eq_true_eq, decide_eq_true_eq]
    exact c.valid.imp_right (And.imp_left Nat.succ_le_of_lt)
  have hvalue := Text.digitsValue_hexDigits c.toNat
  unfold Text.digitsValue at hvalue
  rw [escapeNumbered?, escapeBraced?_digits rest (Text.all_isHexDigit_hexDigits c.toNat) 0 0
    (by rw [Nat.zero_add]; exact Text.length_hexDigits_le c) (by omega), hvalue, Nat.zero_add, escapeBraced?,
    if_neg (by decide), decide_eq_true hpos, if_neg (by decide), if_pos (by decide), hvalid, if_pos rfl]

/-- **One escape is one character.** -/
theorem unescape_escapeChar (fuel : Nat) (c : Char) (rest : List Char) :
    unescape (fuel + 1) (escapeChar c ++ rest) = c :: unescape fuel rest := by
  unfold escapeChar
  -- the short escapes come first; what is written as it is must not be read as one
  split
  · next h => rw [eq_of_beq h]; rfl
  split
  · next h => rw [eq_of_beq h]; rfl
  split
  · next h => rw [eq_of_beq h]; rfl
  split
  · next h => rw [eq_of_beq h]; rfl
  split
  · next h =>
    rcases Bool.or_eq_true_iff.1 h with h | h
    · rw [eq_of_beq h]; rfl
    · rw [eq_of_beq h]; rfl
  next hreturn _ hmarks =>
  split
  · have hwritten : Text.unicodeEscape c ++ rest =
        '\\' :: 'u' :: ('\x7b' :: (hexDigits c.toNat ++ '\x7d' :: rest)) := by
      simp [Text.unicodeEscape]
    rw [hwritten, unescape, escapeNumbered?_hexDigits]
    dsimp only
    rw [Char.ofNat_toNat]
  · rw [Bool.or_eq_true, not_or] at hmarks
    have hquote : c ≠ '"' := by
      rintro rfl
      exact hmarks.1 rfl
    have hbackslash : c ≠ '\\' := by
      rintro rfl
      exact hmarks.2 rfl
    have hnoReturn : c ≠ '\r' := by
      rintro rfl
      exact hreturn rfl
    rw [List.singleton_append, unescape] <;> simp_all

/-! ## Texts -/

/-- **Quoted text is read back** up to its closing quote. -/
theorem unescape_escapeLiteral {fuel : Nat} {cs : List Char} (rest : List Char) (h : cs.length < fuel) :
    unescape fuel (escapeLiteral cs ++ '"' :: rest) = cs := by
  induction cs generalizing fuel with
  | nil =>
    cases fuel with
    | zero => cases h
    | succ fuel => rfl
  | cons c cs ih =>
    cases fuel with
    | zero => cases h
    | succ fuel =>
      have hrest := ih (Nat.lt_of_succ_lt_succ h)
      rw [escapeLiteral, List.append_assoc]
      split
      · next hnul =>
        rw [eq_of_beq (Bool.and_eq_true_iff.1 hnul).1]
        exact congrArg (List.cons _) hrest
      · rw [unescape_escapeChar, hrest]

theorem length_le_escapeLiteral (cs : List Char) : cs.length ≤ (escapeLiteral cs).length := by
  induction cs with
  | nil => exact Nat.le_refl _
  | cons c cs ih =>
    have hone : 1 ≤ (escapeChar c).length := by
      unfold escapeChar Text.unicodeEscape
      split_ifs <;> simp
    rw [escapeLiteral, List.length_append, List.length_cons]
    split
    · simp
      omega
    · omega

theorem toList_quoteLiteral (s : String) : (quoteLiteral s).toList = '"' :: (escapeLiteral s.toList ++ ['"']) :=
  String.toList_ofList

/-- **A quoted code literal is worth its text.** -/
theorem textValue?_quoteLiteral (s : String) : textValue? (quoteLiteral s) = some s := by
  have hfuel : s.toList.length < (escapeLiteral s.toList ++ ['"']).length + 1 := by
    have := length_le_escapeLiteral s.toList
    rw [List.length_append]
    omega
  have hread := unescape_escapeLiteral [] hfuel
  unfold textValue?
  rw [toList_quoteLiteral]
  exact congrArg (fun cs => some (String.ofList cs)) hread |>.trans (congrArg some String.ofList_toList)

/-- **Quoted texts cancel**: if two texts start with quoted texts and are equal, these are equal and so is what
follows. -/
theorem quoted_cancel {s t : String} {rest rest' : List Char}
    (h : (quoteLiteral s).toList ++ rest = (quoteLiteral t).toList ++ rest') : s = t ∧ rest = rest' := by
  have hwritten : ∀ (s : String) (rest : List Char),
      (quoteLiteral s).toList ++ rest = '"' :: (escapeLiteral s.toList ++ '"' :: rest) := by
    intro s rest
    rw [toList_quoteLiteral, List.cons_append, List.append_assoc]
    rfl
  rw [hwritten, hwritten] at h
  have hinside := (List.cons.inj h).2
  -- one bound serves for both texts
  have hst : s.toList = t.toList := by
    calc s.toList
        = unescape (s.toList.length + t.toList.length + 1) (escapeLiteral s.toList ++ '"' :: rest) :=
          (unescape_escapeLiteral rest (by omega)).symm
      _ = unescape (s.toList.length + t.toList.length + 1) (escapeLiteral t.toList ++ '"' :: rest') := by rw [hinside]
      _ = t.toList := unescape_escapeLiteral rest' (by omega)
  rw [hst] at hinside
  exact ⟨String.toList_inj.1 hst, (List.cons.inj (List.append_cancel_left hinside)).2⟩

end Code

end FormWiring
