import FormWiring.Proofs.OptionReading

/-!
# Values of options

An option is given a text, a truth value or a number, and a value has many spellings. A number option counts the
minuses of a number as they stand: it takes one off, and the literal behind it may have another.

Main definition: `GivenValue`. Main statements: `OptionReader.textValue_eq_ok_iff`,
`OptionReader.truthValue_eq_ok_iff`, `OptionReader.numberValue_eq_ok_iff`.
-/

set_option autoImplicit false

namespace FormWiring

open Code

namespace OptionReader

/-! ## Literals of a kind -/

theorem textOf?_eq_some_iff {value : LiteralValue} {s : String} : textOf? value = some s ↔ value = .text s := by
  cases value <;> simp [textOf?]

theorem truthOf?_eq_some_iff {value : LiteralValue} {b : Bool} : truthOf? value = some b ↔ value = .bool b := by
  cases value <;> simp [truthOf?]

/-- A minus goes with numbers only. -/
theorem numberValue?_cases {negative : Bool} {cs : List Char} {value : LiteralValue}
    (h : numberValue? negative cs = some value) :
    (∃ digits, value = .integer digits) ∨ ∃ digits, value = .float digits := by
  unfold numberValue? at h
  dsimp only at h
  cases hinteger : integerValue? cs with
  | some n =>
    rw [hinteger] at h
    cases h
    exact .inl ⟨_, rfl⟩
  | none =>
    rw [hinteger] at h
    obtain ⟨digits, -, rfl⟩ := Option.map_eq_some_iff.1 h
    exact .inr ⟨_, rfl⟩

/-- A literal token is no truth value. -/
theorem literalValue_ne_bool (text : String) (b : Bool) : literalValue text ≠ .bool b := by
  unfold literalValue
  split
  · exact nofun
  · cases hnumber : numberValue? false text.toList with
    | none => exact nofun
    | some value =>
      rcases numberValue?_cases hnumber with ⟨digits, rfl⟩ | ⟨digits, rfl⟩
      · exact nofun
      · exact nofun

theorem leadingLiteral?_text {t rest : List Token} {s : String} :
    leadingLiteral? t = some (.text s, rest) ↔ ∃ text, t = .literal text :: rest ∧ literalValue text = .text s := by
  rw [leadingLiteral?_eq_some_iff]
  constructor
  · rintro (h | ⟨b, -, hb⟩ | ⟨_, text, -, hnumber⟩)
    · exact h
    · cases hb
    · rcases numberValue?_cases hnumber with ⟨_, hdigits⟩ | ⟨_, hdigits⟩
      · cases hdigits
      · cases hdigits
  · exact .inl

theorem leadingLiteral?_truth {t rest : List Token} {b : Bool} :
    leadingLiteral? t = some (.bool b, rest) ↔ t = .word (if b then "true" else "false") :: rest := by
  rw [leadingLiteral?_eq_some_iff]
  constructor
  · rintro (⟨text, -, htext⟩ | ⟨b', rfl, hb⟩ | ⟨_, text, -, hnumber⟩)
    · exact absurd htext (literalValue_ne_bool text b)
    · cases hb
      rfl
    · rcases numberValue?_cases hnumber with ⟨_, hdigits⟩ | ⟨_, hdigits⟩
      · cases hdigits
      · cases hdigits
  · rintro rfl
    exact .inr (.inl ⟨b, rfl, rfl⟩)

/-! ## Number literals -/

/-- **Digits of a number literal**, with a fraction or without. -/
def numberDigits? : LiteralValue → Option String
  | .integer digits | .float digits => some digits
  | _ => none

/-- A literal that is a number starts with a digit. -/
theorem isDigit_of_numberValue? {negative : Bool} {cs : List Char} (h : (numberValue? negative cs).isSome = true) :
    cs.head?.any Text.isDigit = true := by
  cases hdigit : cs.head?.any Text.isDigit with
  | true => rfl
  | false =>
    have hinteger : integerValue? cs = none := by
      unfold integerValue?
      rw [hdigit]
      rfl
    have hfloat : floatValue? cs = none := by
      unfold floatValue?
      rw [hdigit]
      rfl
    unfold numberValue? at h
    rw [hinteger, hfloat] at h
    cases h

/-- And so it is no text. -/
theorem textValue?_of_isDigit {text : String} (h : text.toList.head?.any Text.isDigit = true) :
    textValue? text = none := by
  unfold textValue?
  split
  · next heq =>
    rw [heq] at h
    exact absurd h (show ¬ Text.isDigit '"' = true by decide)
  · next heq =>
    rw [heq] at h
    exact absurd h (show ¬ Text.isDigit 'r' = true by decide)
  · rfl

theorem numberDigits?_literalValue (text : String) :
    numberDigits? (literalValue text) = (numberValue? false text.toList).bind numberDigits? := by
  cases hnumber : numberValue? false text.toList with
  | some value =>
    have htext : textValue? text = none := textValue?_of_isDigit (isDigit_of_numberValue? (by rw [hnumber]; rfl))
    unfold literalValue
    rw [htext, hnumber]
    rfl
  | none =>
    unfold literalValue
    rw [hnumber]
    cases textValue? text <;> rfl

/-- A minus in front of a number stands in front of its digits. -/
theorem numberDigits?_minus (text : String) :
    (numberValue? true text.toList).bind numberDigits? = (numberDigits? (literalValue text)).map ("-" ++ ·) := by
  rw [numberDigits?_literalValue]
  unfold numberValue?
  cases integerValue? text.toList with
  | some n => simp [numberDigits?]
  | none => cases floatValue? text.toList <;> simp [numberDigits?]

end OptionReader

/-! ## Given values -/

/-- **Values given** to options. Of a number its minuses are counted and its digits are those in base ten. -/
inductive GivenValue where
  | text (value : String)
  | truth (value : Bool)
  | number (minuses : Nat) (digits : String)
  deriving DecidableEq, Repr

namespace GivenValue

open OptionReader

/-- **Spellings** of a value: a literal, with minuses before it if it is a number. -/
inductive Spells : GivenValue → List Token → Prop where
  | text {literal value : String} (h : literalValue literal = .text value) : Spells (.text value) [.literal literal]
  | truth (value : Bool) : Spells (.truth value) [.word (if value then "true" else "false")]
  | number {literal digits : String} (minuses : List Bool) (h : numberDigits? (literalValue literal) = some digits) :
      Spells (.number minuses.length digits) (minuses.map (.mark '-') ++ [.literal literal])

/-- **Text of a value** where a number is wanted: a number with its minuses, or a text without the blanks around it. -/
def digits : GivenValue → String
  | text value => Text.trim value
  | truth _ => ""
  | number minuses digits => String.ofList (List.replicate minuses '-') ++ digits

/-- **Values for a number**: a text, or a number with so many minuses at most. -/
def IsNumeric (most : Nat) : GivenValue → Prop
  | text _ => True
  | truth _ => False
  | number minuses _ => minuses ≤ most

/-- **Spellings of an option**: its name, an equals sign and a spelling of its value. -/
def SpellsOption (name : String) (v : GivenValue) (p : List Token) : Prop :=
  ∃ joined spelling, p = .word name :: .mark '=' joined :: spelling ∧ v.Spells spelling

end GivenValue

namespace OptionReader

open GivenValue

/-! ## Texts and truth values -/

/-- **A text** is read from its spellings after an equals sign. -/
theorem textValue_eq_ok_iff {t rest : List Token} {s : String} :
    textValue t = .ok (s, rest) ↔
      ∃ joined spelling, t = .mark '=' joined :: (spelling ++ rest) ∧ Spells (.text s) spelling := by
  unfold textValue
  rw [bind_eq_ok_iff]
  constructor
  · rintro ⟨⟨⟩, after, hmark, hliteral⟩
    obtain ⟨joined, rfl⟩ := mark_eq_ok_iff.1 hmark
    obtain ⟨value, hvalue, hs⟩ := (literal_eq_ok_iff .text).1 hliteral
    obtain rfl := textOf?_eq_some_iff.1 hs
    obtain ⟨text, rfl, htext⟩ := leadingLiteral?_text.1 hvalue
    exact ⟨joined, [.literal text], rfl, .text htext⟩
  · rintro ⟨joined, spelling, rfl, hspells⟩
    cases hspells with
    | @text text _ htext =>
      exact ⟨(), _, mark_eq_ok_iff.2 ⟨joined, rfl⟩,
        (literal_eq_ok_iff .text).2 ⟨.text s, leadingLiteral?_text.2 ⟨text, rfl, htext⟩, rfl⟩⟩

theorem stopsAtComma_textValue : StopsAtComma textValue :=
  (stopsAtComma_mark (by decide)).bind fun _ => stopsAtComma_literal .text

/-- **A truth value** is read from its word after an equals sign. -/
theorem truthValue_eq_ok_iff {t rest : List Token} {b : Bool} :
    truthValue t = .ok (b, rest) ↔
      ∃ joined spelling, t = .mark '=' joined :: (spelling ++ rest) ∧ Spells (.truth b) spelling := by
  unfold truthValue
  rw [bind_eq_ok_iff]
  constructor
  · rintro ⟨⟨⟩, after, hmark, hliteral⟩
    obtain ⟨joined, rfl⟩ := mark_eq_ok_iff.1 hmark
    obtain ⟨value, hvalue, hb⟩ := (literal_eq_ok_iff .truth).1 hliteral
    obtain rfl := truthOf?_eq_some_iff.1 hb
    obtain rfl := leadingLiteral?_truth.1 hvalue
    exact ⟨joined, _, rfl, .truth b⟩
  · rintro ⟨joined, spelling, rfl, hspells⟩
    cases hspells with
    | truth =>
      exact ⟨(), _, mark_eq_ok_iff.2 ⟨joined, rfl⟩,
        (literal_eq_ok_iff .truth).2 ⟨.bool b, leadingLiteral?_truth.2 rfl, rfl⟩⟩

theorem stopsAtComma_truthValue : StopsAtComma truthValue :=
  (stopsAtComma_mark (by decide)).bind fun _ => stopsAtComma_literal .truth

/-! ## Numbers -/

/-- **Number with its sign** or without. -/
def signedNumber : OptionReader String := do
  let tokens ← get
  let negative := startsWithMarks ['-'] tokens
  if negative then set (tokens.drop 1)
  let digits ←
    match leadingLiteral? (← get) with
    | some (.float digits, rest) => do
      set rest
      pure digits
    | _ => literal .integer integerOf?
  pure ((if negative then "-" else "") ++ digits)

/-- **Value of a number option** after its equals sign. -/
def numberOrText : OptionReader String := do
  match leadingLiteral? (← get) with
  | some (.text value, rest) => do
    set rest
    pure (Text.trim value)
  | _ => signedNumber

theorem numberValue_eq : numberValue = mark '=' >>= fun _ => numberOrText := rfl

/-- Behind its minus a number is a literal with a fraction or without. -/
theorem signedNumber_run (t : List Token) :
    signedNumber t =
      (literal .integer numberDigits? >>= fun digits =>
        pure ((if startsWithMarks ['-'] t then "-" else "") ++ digits) : OptionReader String)
          (if startsWithMarks ['-'] t then t.drop 1 else t) := by
  have htail : ∀ (sign : String) (u : List Token),
      (do
        let digits ←
          match leadingLiteral? (← get) with
          | some (.float digits, rest) => do
            set rest
            pure digits
          | _ => literal .integer integerOf?
        pure (sign ++ digits) : OptionReader String) u =
        (literal .integer numberDigits? >>= fun digits => pure (sign ++ digits) : OptionReader String) u := by
    intro sign u
    rw [get_bind_run, bind_run, literal_run]
    -- both take a number of either kind, and both fail on anything else
    rcases hleading : leadingLiteral? u with _ | ⟨value, rest⟩
    · dsimp only
      rw [bind_run, literal_run, hleading]
      rfl
    · cases value with
      | float digits => rfl
      | _ =>
        dsimp only
        rw [bind_run, literal_run, hleading]
        rfl
  unfold signedNumber
  rw [get_bind_run]
  dsimp only
  by_cases h : startsWithMarks ['-'] t = true
  · simp only [h, if_true]
    rw [set_bind_run]
    exact htail "-" (t.drop 1)
  · simp only [h]
    exact htail "" t

theorem numberOrText_run (t : List Token) :
    numberOrText t =
      match (leadingLiteral? t).bind fun p => (textOf? p.1).map (·, p.2) with
      | some (s, rest) => .ok (Text.trim s, rest)
      | none => signedNumber t := by
  unfold numberOrText
  rw [get_bind_run]
  rcases leadingLiteral? t with _ | ⟨value, rest⟩
  · rfl
  · cases value <;> rfl

theorem stopsAtComma_signedNumber : StopsAtComma signedNumber where
  suffix t a rest h := by
    rw [signedNumber_run] at h
    have hrest := ((stopsAtComma_literal .integer).bind fun _ => StopsAtComma.pure _).suffix _ _ _ h
    split at hrest
    · exact hrest.trans (List.drop_suffix 1 t)
    · exact hrest
  followed t c u hc := by
    obtain ⟨joined, rfl⟩ := eq_mark_of_isComma hc
    have hdigits : StopsAtComma (literal .integer numberDigits?) := stopsAtComma_literal .integer
    have hreads := fun (sign : String) => hdigits.bind fun digits => StopsAtComma.pure (sign ++ digits)
    rw [signedNumber_run, signedNumber_run]
    cases t with
    | nil => exact (hreads "").followed [] _ u hc
    | cons x t =>
      -- only the first token matters for the minus
      have hfirst : startsWithMarks ['-'] (x :: t ++ .mark ',' joined :: u) = startsWithMarks ['-'] (x :: t) := by
        cases x <;> rfl
      rw [hfirst]
      split
      · exact (hreads "-").followed t _ u hc
      · exact (hreads "").followed (x :: t) _ u hc

theorem stopsAtComma_numberOrText : StopsAtComma numberOrText where
  suffix t a rest h := by
    rw [numberOrText_run] at h
    split at h
    · next s rest' heq =>
      cases h
      obtain ⟨p, hp, hs⟩ := Option.bind_eq_some_iff.1 heq
      obtain ⟨s', -, heq⟩ := Option.map_eq_some_iff.1 hs
      cases heq
      exact suffix_of_leadingLiteral? hp
    · exact stopsAtComma_signedNumber.suffix _ _ _ h
  followed t c u hc := by
    rw [numberOrText_run, numberOrText_run, leadingLiteral?_append hc, stopsAtComma_signedNumber.followed t c u hc]
    rcases leadingLiteral? t with _ | ⟨value, rest⟩
    · rfl
    · cases value <;> rfl

theorem stopsAtComma_numberValue : StopsAtComma numberValue := by
  rw [numberValue_eq]
  exact (stopsAtComma_mark (by decide)).bind fun _ => stopsAtComma_numberOrText

/-- **A number literal** is read with one minus or without. -/
theorem literal_numberDigits?_eq_ok_iff {t rest : List Token} {s : String} :
    literal .integer numberDigits? t = .ok (s, rest) ↔
      ∃ (minuses : List Bool) (text digits : String), t = minuses.map (.mark '-') ++ .literal text :: rest ∧
        numberDigits? (literalValue text) = some digits ∧ minuses.length ≤ 1 ∧
          s = String.ofList (List.replicate minuses.length '-') ++ digits := by
  rw [literal_eq_ok_iff]
  constructor
  · rintro ⟨value, hvalue, hs⟩
    rcases leadingLiteral?_eq_some_iff.1 hvalue with ⟨text, rfl, rfl⟩ | ⟨b, -, rfl⟩ | ⟨joined, text, rfl, hnumber⟩
    · exact ⟨[], text, s, rfl, hs, Nat.zero_le 1, String.empty_append.symm⟩
    · cases hs
    · have hminus := numberDigits?_minus text
      rw [hnumber, Option.bind_some, hs, eq_comm, Option.map_eq_some_iff] at hminus
      obtain ⟨digits, hdigits, rfl⟩ := hminus
      exact ⟨[joined], text, digits, rfl, hdigits, Nat.le_refl 1, rfl⟩
  · rintro ⟨minuses, text, digits, rfl, hdigits, hle, rfl⟩
    match minuses, hle with
    | [], _ =>
      exact ⟨_, leadingLiteral?_eq_some_iff.2 (.inl ⟨text, rfl, rfl⟩), by simpa using hdigits⟩
    | [joined], _ =>
      have hminus := numberDigits?_minus text
      rw [hdigits, Option.map_some, Option.bind_eq_some_iff] at hminus
      obtain ⟨value, hvalue, hs⟩ := hminus
      exact ⟨value, leadingLiteral?_eq_some_iff.2 (.inr (.inr ⟨joined, text, rfl, hvalue⟩)), hs⟩

theorem minus_append (n : Nat) (digits : String) :
    "-" ++ (String.ofList (List.replicate n '-') ++ digits) = String.ofList (List.replicate (n + 1) '-') ++ digits := by
  rw [← String.append_assoc, List.replicate_succ]
  congr 1
  exact String.toList_injective (by simp)

/-- **A number** is read with two minuses at most: one is taken off, and the literal may have another. -/
theorem signedNumber_eq_ok_iff {t rest : List Token} {s : String} :
    signedNumber t = .ok (s, rest) ↔
      ∃ (minuses : List Bool) (text digits : String), t = minuses.map (.mark '-') ++ .literal text :: rest ∧
        numberDigits? (literalValue text) = some digits ∧ minuses.length ≤ 2 ∧
          s = String.ofList (List.replicate minuses.length '-') ++ digits := by
  rw [signedNumber_run, bind_eq_ok_iff]
  constructor
  · rintro ⟨digits', rest', hliteral, hpure⟩
    cases hpure
    obtain ⟨minuses, text, digits, ht, hdigits, hle, rfl⟩ := literal_numberDigits?_eq_ok_iff.1 hliteral
    by_cases hstarts : startsWithMarks ['-'] t = true
    · obtain ⟨joined, more, rfl⟩ := startsWithMarks_singleton.1 hstarts
      rw [if_pos hstarts, List.drop_one, List.tail_cons] at ht
      refine ⟨joined :: minuses, text, digits, by rw [ht]; rfl, hdigits, Nat.succ_le_succ hle, ?_⟩
      rw [if_pos hstarts, minus_append, List.length_cons]
    · rw [if_neg hstarts] at ht
      refine ⟨minuses, text, digits, ht, hdigits, Nat.le_succ_of_le hle, ?_⟩
      rw [if_neg hstarts, String.empty_append]
  · rintro ⟨minuses, text, digits, rfl, hdigits, hle, rfl⟩
    cases minuses with
    | nil =>
      exact ⟨_, rest, literal_numberDigits?_eq_ok_iff.2 ⟨[], text, digits, rfl, hdigits, Nat.zero_le 1, rfl⟩, rfl⟩
    | cons joined minuses =>
      refine ⟨_, rest, literal_numberDigits?_eq_ok_iff.2
        ⟨minuses, text, digits, rfl, hdigits, Nat.le_of_succ_le_succ hle, rfl⟩, ?_⟩
      change Except.ok ("-" ++ (String.ofList (List.replicate minuses.length '-') ++ digits), rest) = _
      rw [minus_append, List.length_cons]

/-- A number is no text, with a minus or without. -/
theorem textOf?_leadingLiteral?_number {text digits : String}
    (hdigits : numberDigits? (literalValue text) = some digits) (minuses : List Bool) (rest : List Token) :
    ((leadingLiteral? (minuses.map (.mark '-') ++ .literal text :: rest)).bind fun p =>
      (textOf? p.1).map (·, p.2)) = none := by
  rw [Option.bind_eq_none_iff]
  rintro ⟨value, rest'⟩ hleading
  rw [Option.map_eq_none_iff, Option.eq_none_iff_forall_ne_some]
  intro s hs
  obtain rfl : value = .text s := textOf?_eq_some_iff.1 hs
  obtain ⟨text', heq, htext⟩ := leadingLiteral?_text.1 hleading
  cases minuses with
  | nil =>
    cases heq
    rw [htext] at hdigits
    cases hdigits
  | cons => cases heq

/-- **A number option** takes a number with two minuses at most, or a text in its place. -/
theorem numberOrText_eq_ok_iff {t rest : List Token} {s : String} :
    numberOrText t = .ok (s, rest) ↔
      ∃ v spelling, t = spelling ++ rest ∧ Spells v spelling ∧ v.IsNumeric 2 ∧ v.digits = s := by
  rw [numberOrText_run]
  constructor
  · intro h
    split at h
    · next s' rest' heq =>
      cases h
      obtain ⟨⟨value, rest''⟩, hleading, hpick⟩ := Option.bind_eq_some_iff.1 heq
      obtain ⟨s'', hs, hpair⟩ := Option.map_eq_some_iff.1 hpick
      cases hpair
      obtain rfl : value = .text s' := textOf?_eq_some_iff.1 hs
      obtain ⟨text, rfl, htext⟩ := leadingLiteral?_text.1 hleading
      exact ⟨.text s', _, rfl, .text htext, trivial, rfl⟩
    · obtain ⟨minuses, text, digits, rfl, hdigits, hle, rfl⟩ := signedNumber_eq_ok_iff.1 h
      exact ⟨_, _, by rw [List.append_assoc]; rfl, .number minuses hdigits, hle, rfl⟩
  · rintro ⟨v, spelling, rfl, hspells, hnumeric, rfl⟩
    cases hspells with
    | text htext =>
      rw [List.singleton_append, leadingLiteral?_text.2 ⟨_, rfl, htext⟩]
      rfl
    | truth => cases hnumeric
    | @number text digits minuses hdigits =>
      have hnumber : signedNumber (minuses.map (.mark '-') ++ .literal text :: rest) =
          .ok ((number minuses.length digits).digits, rest) :=
        signedNumber_eq_ok_iff.2 ⟨minuses, text, digits, rfl, hdigits, hnumeric, rfl⟩
      rw [List.append_assoc, List.singleton_append, textOf?_leadingLiteral?_number hdigits]
      exact hnumber

theorem numberValue_eq_ok_iff {t rest : List Token} {s : String} :
    numberValue t = .ok (s, rest) ↔
      ∃ joined v spelling, t = .mark '=' joined :: (spelling ++ rest) ∧ Spells v spelling ∧ v.IsNumeric 2 ∧
        v.digits = s := by
  rw [numberValue_eq, bind_eq_ok_iff]
  constructor
  · rintro ⟨⟨⟩, after, hmark, hnumber⟩
    obtain ⟨joined, rfl⟩ := mark_eq_ok_iff.1 hmark
    obtain ⟨v, spelling, rfl, hv⟩ := numberOrText_eq_ok_iff.1 hnumber
    exact ⟨joined, v, spelling, rfl, hv⟩
  · rintro ⟨joined, v, spelling, rfl, hv⟩
    exact ⟨(), _, mark_eq_ok_iff.2 ⟨joined, rfl⟩, numberOrText_eq_ok_iff.2 ⟨v, spelling, rfl, hv⟩⟩

end OptionReader

end FormWiring
