import FormWiring.Derive.Options
import FormWiring.Proofs.Decimal

/-!
# Options as they are written

An option is a name, an equals sign and a value; options stand between commas, and a comma at the end may stand or
not. A value has many spellings, and every one of them reads as the value: a text may be raw or escaped, a number may
be in any base and carry a suffix. A reader of options thus only sees which names were given which values, in the
order in which they were written.

Main statement: `OptionReader.foldOptions_of_writes`.
-/

set_option autoImplicit false

namespace FormWiring

open Code

/-! ## Values -/

/-- **Values written** for options. -/
inductive WrittenValue where
  | text (value : String)
  | truth (value : Bool)
  | number (negative : Bool) (magnitude : Nat)
  deriving DecidableEq, Repr

namespace WrittenValue

/-- **The value as data.** -/
def datum : WrittenValue → Datum
  | text value => .text value
  | truth value => .bool value
  | number negative magnitude => .int (if negative then -(magnitude : Int) else magnitude)

/-- **Text**, if it is one. -/
def text? : WrittenValue → Option String
  | text value => some value
  | _ => none

/-- **Truth value**, if it is one. -/
def truth? : WrittenValue → Option Bool
  | truth value => some value
  | _ => none

/-- **Digits** as an option for numbers takes them: those of a number, or a text without the blanks around it. -/
def digits? : WrittenValue → Option String
  | text value => some (Text.trim value)
  | truth _ => none
  | number negative magnitude => some ((if negative then "-" else "") ++ toString magnitude)

/-- **Spellings** of a value as tokens. -/
inductive Spells : WrittenValue → List Token → Prop where
  | text {literal value : String} (h : literalValue literal = .text value) :
      Spells (.text value) [.literal literal]
  | truth (value : Bool) : Spells (.truth value) [.word (if value then "true" else "false")]
  | number {literal : String} {n : Nat} (h : integerValue? literal.toList = some n) :
      Spells (.number false n) [.literal literal]
  | minus {literal : String} {n : Nat} (joined : Bool) (h : integerValue? literal.toList = some n) :
      Spells (.number true n) [.mark '-' joined, .literal literal]

end WrittenValue

/-- A literal with an integer value is no text, and stands for its digits in base ten. -/
theorem literalValue_of_integerValue? {literal : String} {n : Nat}
    (h : integerValue? literal.toList = some n) : literalValue literal = .integer (toString n) := by
  have hfirst : literal.toList.head?.any Text.isDigit = true := by
    unfold integerValue? at h
    cases hdigit : literal.toList.head?.any Text.isDigit with
    | true => rfl
    | false =>
      rw [hdigit] at h
      cases h
  -- a text starts with a quote or the letter for raw ones, and neither is a digit
  have htext : textValue? literal = none := by
    unfold textValue?
    split
    · next heq =>
      rw [heq] at hfirst
      exact absurd hfirst (show ¬ Text.isDigit '"' = true by decide)
    · next heq =>
      rw [heq] at hfirst
      exact absurd hfirst (show ¬ Text.isDigit 'r' = true by decide)
    · rfl
  unfold literalValue numberValue?
  rw [htext, h]
  simp

/-- **Options written** in a row, with commas between them and one at the end or none. -/
inductive WritesOptions : List (String × WrittenValue) → List Token → Prop where
  | nil : WritesOptions [] []
  | last {name : String} {v : WrittenValue} {spelling : List Token} (joined : Bool) (h : v.Spells spelling) :
      WritesOptions [(name, v)] (.word name :: .mark '=' joined :: spelling)
  | comma {name : String} {v : WrittenValue} {spelling rest : List Token} {options : List (String × WrittenValue)}
      (joined joined' : Bool) (h : v.Spells spelling) (hrest : WritesOptions options rest) :
      WritesOptions ((name, v) :: options)
        (.word name :: .mark '=' joined :: (spelling ++ .mark ',' joined' :: rest))

/-! ## Reading values -/

namespace OptionReader

open WrittenValue

theorem bind_apply {α β : Type} {x : OptionReader α} {f : α → OptionReader β} {a : α} {t r : List Token}
    (h : x t = .ok (a, r)) : (x >>= f) t = f a r := by
  change (x t >>= fun p => f p.1 p.2) = f a r
  rw [h]
  rfl

theorem mark_apply (c : Char) (joined : Bool) (rest : List Token) :
    mark c (.mark c joined :: rest) = .ok ((), rest) := by
  have hstarts : startsWithMarks [c] (.mark c joined :: rest) = true := by simp [startsWithMarks]
  unfold mark
  refine (bind_apply (a := .mark c joined :: rest) rfl).trans ?_
  rw [if_pos hstarts]
  rfl

theorem literal_apply {α : Type} (kind : LiteralKind) {pick : LiteralValue → Option α} {a : α}
    {l : LiteralValue} {t r : List Token} (hleading : leadingLiteral? t = some (l, r))
    (hpick : pick l = some a) : literal kind pick t = .ok (a, r) := by
  unfold literal
  refine (bind_apply (a := t) rfl).trans ?_
  rw [hleading]
  dsimp only
  rw [hpick]
  rfl

variable {v : WrittenValue} {spelling : List Token}

/-- An option for a text takes every spelling of one. -/
theorem textValue_apply {s : String} (hspells : Spells v spelling) (hv : v.text? = some s) (joined : Bool)
    (rest : List Token) : textValue (.mark '=' joined :: (spelling ++ rest)) = .ok (s, rest) := by
  unfold textValue
  refine (bind_apply (mark_apply '=' joined (spelling ++ rest))).trans ?_
  cases hspells with
  | text h =>
    cases hv
    exact literal_apply .text (l := .text s) (by rw [← h]; rfl) rfl
  | truth => cases hv
  | number => cases hv
  | minus => cases hv

/-- An option for a truth value takes its word. -/
theorem truthValue_apply {b : Bool} (hspells : Spells v spelling) (hv : v.truth? = some b) (joined : Bool)
    (rest : List Token) : truthValue (.mark '=' joined :: (spelling ++ rest)) = .ok (b, rest) := by
  unfold truthValue
  refine (bind_apply (mark_apply '=' joined (spelling ++ rest))).trans ?_
  cases hspells with
  | text => cases hv
  | truth value =>
    cases hv
    refine literal_apply .truth (l := .bool b) ?_ rfl
    cases b <;> rfl
  | number => cases hv
  | minus => cases hv

/-- An option for a number takes every spelling of one, and a text in its place. -/
theorem numberValue_apply {digits : String} (hspells : Spells v spelling) (hv : v.digits? = some digits)
    (joined : Bool) (rest : List Token) :
    numberValue (.mark '=' joined :: (spelling ++ rest)) = .ok (digits, rest) := by
  unfold numberValue
  -- a text is taken as it is; otherwise a minus is taken off first and the digits are read after it
  refine (bind_apply (mark_apply '=' joined (spelling ++ rest))).trans ?_
  refine (bind_apply (a := spelling ++ rest) rfl).trans ?_
  cases hspells with
  | @text literal s h =>
    cases hv
    have hleading : leadingLiteral? ([.literal literal] ++ rest) = some (.text s, rest) := by
      rw [← h]
      rfl
    rw [hleading]
    rfl
  | truth => cases hv
  | @number literal n h =>
    cases hv
    have hleading : leadingLiteral? ([.literal literal] ++ rest) = some (.integer (toString n), rest) := by
      rw [← literalValue_of_integerValue? h]
      rfl
    rw [hleading]
    refine (bind_apply (a := [.literal literal] ++ rest) rfl).trans ?_
    rw [if_neg (show ¬ startsWithMarks ['-'] ([.literal literal] ++ rest) = true by simp [startsWithMarks])]
    refine (bind_apply (a := [.literal literal] ++ rest) rfl).trans ?_
    rw [hleading]
    exact bind_apply (literal_apply .integer hleading rfl)
  | @minus literal n joined' h =>
    cases hv
    -- the literal reader sees the number with its minus first, then the number alone
    have hsigned : leadingLiteral? ([.mark '-' joined', .literal literal] ++ rest) =
        some (.integer ("-" ++ toString n), rest) := by
      change (numberValue? true literal.toList).map (·, rest) = _
      unfold numberValue?
      rw [h]
      rfl
    have hleading : leadingLiteral? (.literal literal :: rest) = some (.integer (toString n), rest) := by
      rw [← literalValue_of_integerValue? h]
      rfl
    rw [hsigned]
    refine (bind_apply (a := [.mark '-' joined', .literal literal] ++ rest) rfl).trans ?_
    rw [if_pos (show startsWithMarks ['-'] ([.mark '-' joined', .literal literal] ++ rest) = true by
      simp [startsWithMarks])]
    refine (bind_apply (a := ()) (r := .literal literal :: rest) rfl).trans ?_
    refine (bind_apply (a := .literal literal :: rest) rfl).trans ?_
    rw [hleading]
    exact bind_apply (literal_apply .integer hleading rfl)

/-! ## Reading options -/

/-- The name before an equals sign is one name, whatever follows. -/
theorem optionName_apply (name : String) (joined : Bool) (rest : List Token) :
    optionName (.word name :: .mark '=' joined :: rest) = .ok (some name, .mark '=' joined :: rest) := by
  have hmore : moreNames ((Token.mark '=' joined :: rest).length + 1) (.mark '=' joined :: rest) =
      .ok (false, .mark '=' joined :: rest) := by
    unfold moreNames
    refine (bind_apply (a := .mark '=' joined :: rest) rfl).trans ?_
    rw [if_neg (show ¬ startsWithMarks [':', ':'] (.mark '=' joined :: rest) = true by simp [startsWithMarks])]
    rfl
  unfold optionName
  refine (bind_apply (a := .word name :: .mark '=' joined :: rest) rfl).trans ?_
  rw [if_neg (show ¬ startsWithMarks [':', ':'] (.word name :: .mark '=' joined :: rest) = true by
    simp [startsWithMarks])]
  refine (bind_apply (a := ()) (r := .mark '=' joined :: rest) rfl).trans ?_
  refine (bind_apply hmore).trans ?_
  rfl

section Rows

variable {σ : Type} {step : σ → Option String → OptionReader σ}
  {apply : σ → String × WrittenValue → Option σ}

/-- **Reading a row of options** does to the state what the names and values do, one after the other. -/
theorem options_of_writes {options : List (String × WrittenValue)} {tokens : List Token}
    (hstep : ∀ s s', ∀ o ∈ options, apply s o = some s' → ∀ spelling, o.2.Spells spelling → ∀ joined rest,
      step s (some o.1) (.mark '=' joined :: (spelling ++ rest)) = .ok (s', rest))
    (hwrites : WritesOptions options tokens) (hne : tokens ≠ []) {fuel : Nat} (hfuel : options.length ≤ fuel)
    {s s' : σ} (hfold : options.foldlM apply s = some s') :
    OptionReader.options step fuel s tokens = .ok (s', []) := by
  -- one option uses up one unit of fuel, and the row has no more options than that
  induction hwrites generalizing fuel s with
  | nil => exact absurd rfl hne
  | @last name v spelling joined h =>
    obtain ⟨fuel, rfl⟩ : ∃ n, fuel = n + 1 := ⟨fuel - 1, by simp at hfuel; omega⟩
    rw [List.foldlM_cons, Option.bind_eq_bind, Option.bind_eq_some_iff] at hfold
    obtain ⟨s₁, hs₁, hfold⟩ := hfold
    cases hfold
    have hread := hstep s s' (name, v) List.mem_cons_self hs₁ spelling h joined []
    rw [List.append_nil] at hread
    unfold OptionReader.options
    refine (bind_apply (optionName_apply name joined spelling)).trans ?_
    refine (bind_apply hread).trans ?_
    rfl
  | @comma name v spelling rest options joined joined' h hrest ih =>
    obtain ⟨fuel, rfl⟩ : ∃ n, fuel = n + 1 := ⟨fuel - 1, by simp at hfuel; omega⟩
    rw [List.foldlM_cons, Option.bind_eq_bind, Option.bind_eq_some_iff] at hfold
    obtain ⟨s₁, hs₁, hfold⟩ := hfold
    have hread := hstep s s₁ (name, v) List.mem_cons_self hs₁ spelling h joined (.mark ',' joined' :: rest)
    unfold OptionReader.options
    refine (bind_apply (optionName_apply name joined (spelling ++ .mark ',' joined' :: rest))).trans ?_
    refine (bind_apply hread).trans ?_
    refine (bind_apply (a := .mark ',' joined' :: rest) rfl).trans ?_
    rw [if_neg (show ¬ (Token.mark ',' joined' :: rest).isEmpty = true by simp)]
    refine (bind_apply (mark_apply ',' joined' rest)).trans ?_
    refine (bind_apply (a := rest) rfl).trans ?_
    -- after the comma the row may be over
    cases rest with
    | nil =>
      cases hrest
      cases hfold
      rfl
    | cons t rest =>
      rw [if_neg (show ¬ (t :: rest).isEmpty = true by simp)]
      refine ih (fun s s' o ho => hstep s s' o (List.mem_cons_of_mem _ ho)) (by simp) ?_ hfold
      rw [List.length_cons] at hfuel
      omega

/-- A row of options is no shorter than their number. -/
theorem length_le_of_writes {options : List (String × WrittenValue)} {tokens : List Token}
    (h : WritesOptions options tokens) : options.length ≤ tokens.length := by
  induction h with
  | nil => exact Nat.le_refl 0
  | last => simp
  | comma joined joined' h hrest ih =>
    simp only [List.length_cons, List.length_append]
    omega

/-- **Reading all options** of an attribute. -/
theorem foldOptions_of_writes {options : List (String × WrittenValue)} {tokens : List Token}
    (hstep : ∀ s s', ∀ o ∈ options, apply s o = some s' → ∀ spelling, o.2.Spells spelling → ∀ joined rest,
      step s (some o.1) (.mark '=' joined :: (spelling ++ rest)) = .ok (s', rest))
    (hwrites : WritesOptions options tokens) {s s' : σ} (hfold : options.foldlM apply s = some s') :
    foldOptions step s tokens = .ok s' := by
  unfold foldOptions
  cases tokens with
  | nil =>
    cases hwrites
    cases hfold
    rfl
  | cons t tokens =>
    rw [if_neg (show ¬ (t :: tokens).isEmpty = true by simp)]
    have hread := options_of_writes hstep hwrites (by simp) (length_le_of_writes hwrites) hfold
    change (·.1) <$> OptionReader.options step (t :: tokens).length s (t :: tokens) = .ok s'
    rw [hread]
    rfl

end Rows

end OptionReader

end FormWiring
