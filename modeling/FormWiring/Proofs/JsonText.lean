import FormWiring.Json.Parser
import FormWiring.Json.Printer
import FormWiring.Proofs.Decimal

/-!
# JSON text read back

A data tree printed with one entry a line is read back as itself, whatever its texts hold. The reader takes one
escape for each character of a text, the digits of a number up to the comma or line end behind them, and passes over
the line starts of the layout. Its fuel is the length of the text, and every part of a tree is shorter than the whole.

Main statement: `Json.parse?_pretty`.
-/

set_option autoImplicit false

namespace FormWiring

namespace Json

/-! ## Layout -/

/-- **Line starts** are passed over like other blanks. -/
theorem skipSpace_lineStart (level : Nat) (cs : List Char) : skipSpace (lineStart level ++ cs) = skipSpace cs := by
  have hblank : ∀ c ∈ lineStart level, isSpace c = true := by
    intro c hc
    rcases List.mem_cons.1 hc with rfl | hc
    · rfl
    · rw [List.eq_of_mem_replicate hc]
      rfl
  exact List.dropWhile_append_of_pos hblank

theorem parseValue_congr {fuel : Nat} {cs cs' : List Char} (h : skipSpace cs = skipSpace cs') :
    parseValue fuel cs = parseValue fuel cs' := by
  cases fuel with
  | zero => rfl
  | succ fuel => rw [parseValue, parseValue, h]

theorem parseValue_lineStart (fuel level : Nat) (cs : List Char) :
    parseValue fuel (lineStart level ++ cs) = parseValue fuel cs :=
  parseValue_congr (skipSpace_lineStart level cs)

theorem parseItems_lineStart (fuel level : Nat) (cs : List Char) :
    parseItems fuel (lineStart level ++ cs) = parseItems fuel cs := by
  cases fuel with
  | zero => rfl
  | succ fuel => rw [parseItems, parseItems, parseValue_lineStart]

theorem parseEntries_lineStart (fuel level : Nat) (seen : List (String × Datum)) (cs : List Char) :
    parseEntries fuel seen (lineStart level ++ cs) = parseEntries fuel seen cs := by
  cases fuel with
  | zero => rfl
  | succ fuel => rw [parseEntries, parseEntries, skipSpace_lineStart]

end Json

/-! ## Data that JSON can say -/

/-- **Data that JSON can say**: integers of 64 bits, with a sign or without, no other numbers, and records that have
each key once. -/
inductive Datum.IsSayable : Datum → Prop where
  | null : IsSayable .null
  | bool (value : Bool) : IsSayable (.bool value)
  | int {value : Int} (hlow : Int64.minValue.toInt ≤ value) (hhigh : value < UInt64.size) : IsSayable (.int value)
  | text (value : String) : IsSayable (.text value)
  | list {items : List Datum} (hitems : ∀ d ∈ items, IsSayable d) : IsSayable (.list items)
  | record {entries : List (String × Datum)} (hkeys : (entries.map Prod.fst).Nodup)
      (hvalues : ∀ e ∈ entries, IsSayable e.2) : IsSayable (.record entries)

namespace Json

/-! ## Texts -/

theorem hexDigit_spec : ∀ n < 16, Text.isHexDigit (hexDigit n) = true ∧ Text.digitValue (hexDigit n) = n := by
  decide

/-- A control character written by number is read back. -/
theorem numberedChar?_hexDigits {c : Char} (hc : c.toNat < 0x20) (rest : List Char) :
    numberedChar? ('0' :: '0' :: hexDigit (c.toNat / 16) :: hexDigit (c.toNat % 16) :: rest) = some (c, rest) := by
  obtain ⟨hhighDigit, hhigh⟩ := hexDigit_spec (c.toNat / 16) (by omega)
  obtain ⟨hlowDigit, hlow⟩ := hexDigit_spec (c.toNat % 16) (by omega)
  have hdigits : [('0' : Char), '0', hexDigit (c.toNat / 16), hexDigit (c.toNat % 16)].all Text.isHexDigit = true := by
    rw [List.all_cons, List.all_cons, List.all_cons, List.all_cons, hhighDigit, hlowDigit]
    rfl
  have hvalue : Text.digitsValue 16 ['0', '0', hexDigit (c.toNat / 16), hexDigit (c.toNat % 16)] = c.toNat := by
    have hzero : Text.digitValue '0' = 0 := rfl
    simp only [Text.digitsValue, Text.digitsValueFrom, List.foldl_cons, List.foldl_nil, hzero, hhigh, hlow]
    omega
  have hread : hex4? ('0' :: '0' :: hexDigit (c.toNat / 16) :: hexDigit (c.toNat % 16) :: rest) =
      some (c.toNat, rest) := by
    rw [hex4?, hdigits, if_pos rfl, hvalue]
  have hplain : ¬(0xD800 ≤ c.toNat && c.toNat < 0xDC00) = true := by
    rw [Bool.and_eq_true, decide_eq_true_eq]
    omega
  have hpaired : ¬(0xDC00 ≤ c.toNat && c.toNat < 0xE000) = true := by
    rw [Bool.and_eq_true, decide_eq_true_eq]
    omega
  rw [numberedChar?, hread]
  simp only [Option.bind_eq_bind, Option.bind_some]
  rw [if_neg hplain, if_neg hpaired, Char.ofNat_toNat]
  rfl

/-- **One escape is one character.** -/
theorem parseTextChars_escapeChar (fuel : Nat) (c : Char) (rest : List Char) :
    parseTextChars (fuel + 1) (escapeChar c ++ rest) =
      (parseTextChars fuel rest).map fun (text, rest) => (c :: text, rest) := by
  have hcons (x : Option (List Char × List Char)) :
      (x >>= fun (text, rest) => pure (c :: text, rest)) = x.map fun (text, rest) => (c :: text, rest) := by
    cases x <;> rfl
  rw [← hcons]
  unfold escapeChar
  -- the escapes of one letter come first; a character is written as it is when nothing else fits
  split
  · next h => rw [eq_of_beq h]; rfl
  split
  · next h => rw [eq_of_beq h]; rfl
  split
  · next h => rw [eq_of_beq h]; rfl
  split
  · next h => rw [eq_of_beq h]; rfl
  split
  · next h => rw [eq_of_beq h]; rfl
  split
  · next h => rw [eq_of_beq h]; rfl
  split
  · next h => rw [eq_of_beq h]; rfl
  next hquote hbackslash _ _ _ _ _ =>
  split
  · next hcontrol =>
    rw [List.cons_append, List.cons_append, List.cons_append, List.cons_append, List.cons_append, List.cons_append,
      List.nil_append, parseTextChars, numberedChar?_hexDigits hcontrol]
    rfl
  · next hplain =>
    have hreads : ¬(decide (c.toNat < 0x20) || c == '\\') = true := by
      rw [Bool.or_eq_true, decide_eq_true_eq, not_or]
      exact ⟨hplain, hbackslash⟩
    rw [List.singleton_append, parseTextChars, if_neg hreads]
    · rintro rfl
      exact hquote rfl
    · rintro _ rfl
      exact absurd rfl hbackslash
    · rintro _ _ rfl
      exact absurd rfl hbackslash

/-- **Escaped characters are read back** up to the closing quote. -/
theorem parseTextChars_escaped {fuel : Nat} {cs : List Char} (rest : List Char) (h : cs.length < fuel) :
    parseTextChars fuel (cs.flatMap escapeChar ++ '"' :: rest) = some (cs, rest) := by
  induction cs generalizing fuel with
  | nil =>
    cases fuel with
    | zero => cases h
    | succ fuel => rfl
  | cons c cs ih =>
    cases fuel with
    | zero => cases h
    | succ fuel =>
      rw [List.flatMap_cons, List.append_assoc, parseTextChars_escapeChar, ih (Nat.lt_of_succ_lt_succ h)]
      rfl

theorem one_le_length_escapeChar (c : Char) : 1 ≤ (escapeChar c).length := by
  unfold escapeChar
  grind

theorem length_le_escaped (cs : List Char) : cs.length ≤ (cs.flatMap escapeChar).length := by
  induction cs with
  | nil => exact Nat.le_refl _
  | cons c cs ih =>
    have hone := one_le_length_escapeChar c
    rw [List.flatMap_cons, List.length_append, List.length_cons]
    omega

theorem length_quoteChars (s : String) : (quoteChars s).length = (s.toList.flatMap escapeChar).length + 2 := by
  simp [quoteChars]

/-- **A quoted text is read back**, its opening quote apart. -/
theorem parseText_quoteChars {fuel : Nat} (s : String) (rest : List Char) (h : (quoteChars s).length ≤ fuel + 1) :
    ∃ body, quoteChars s ++ rest = '"' :: body ∧ parseText fuel body = some (s, rest) := by
  have hfuel : s.toList.length < fuel := by
    have := length_le_escaped s.toList
    rw [length_quoteChars] at h
    omega
  refine ⟨s.toList.flatMap escapeChar ++ '"' :: rest, by simp [quoteChars], ?_⟩
  rw [parseText, parseTextChars_escaped rest hfuel]
  exact congrArg (fun text => some (text, rest)) String.ofList_toList

/-! ## Numbers -/

/-- **What may stand behind a value**: nothing, a comma or a line end. -/
def Closes (rest : List Char) : Prop :=
  ∀ c ∈ rest.head?, c = ',' ∨ c = '\n'

theorem closes_comma (rest : List Char) : Closes (',' :: rest) := by
  intro c hc
  exact .inl (Option.mem_some_iff.1 hc).symm

theorem closes_lineEnd (rest : List Char) : Closes ('\n' :: rest) := by
  intro c hc
  exact .inr (Option.mem_some_iff.1 hc).symm

theorem Closes.cases {rest : List Char} (h : Closes rest) :
    rest = [] ∨ (∃ more, rest = ',' :: more) ∨ ∃ more, rest = '\n' :: more := by
  cases rest with
  | nil => exact .inl rfl
  | cons c more =>
    rcases h c rfl with rfl | rfl
    · exact .inr (.inl ⟨more, rfl⟩)
    · exact .inr (.inr ⟨more, rfl⟩)

/-- Only zero is printed with a zero in front. -/
theorem head?_toDigits_ne {n : Nat} (hn : 0 < n) : (Nat.toDigits 10 n).head? ≠ some '0' := by
  have hdigit : ∀ d < 10, 0 < d → Nat.digitChar d ≠ '0' := by decide
  induction n using Nat.strongRecOn with
  | ind n ih =>
    rw [Nat.toDigits_eq_if (by decide)]
    split
    · next hlt =>
      rw [List.head?_cons]
      exact fun h => hdigit n hlt hn (Option.some.inj h)
    · next hge =>
      have hfront : ((Nat.toDigits 10 (n / 10)).head?).isSome = true := List.isSome_head?.2 Nat.toDigits_ne_nil
      rw [List.head?_append, Option.or_of_isSome hfront]
      exact ih (n / 10) (by omega) (by omega)

theorem leadingZero_toDigits (n : Nat) :
    ((Nat.toDigits 10 n).head? == some '0' && (Nat.toDigits 10 n).length != 1) = false := by
  cases n with
  | zero => rfl
  | succ n =>
    have hhead := beq_eq_false_iff_ne.2 (head?_toDigits_ne n.succ_pos)
    rw [hhead, Bool.false_and]

/-- **The digits of a number** are read up to what closes it. -/
theorem parseNumber_toDigits (negative : Bool) (n : Nat) {rest : List Char} (hrest : Closes rest) :
    parseNumber negative (Nat.toDigits 10 n ++ rest) = some (integerDatum negative (Nat.toDigits 10 n), rest) := by
  have hall : ∀ c ∈ Nat.toDigits 10 n, Text.isDigit c = true := List.all_eq_true.1 (Text.all_isDigit_toDigits n)
  have hempty : (Nat.toDigits 10 n).isEmpty = false := List.isEmpty_eq_false_iff.2 Nat.toDigits_ne_nil
  have htake : (Nat.toDigits 10 n ++ rest).takeWhile Text.isDigit = Nat.toDigits 10 n := by
    rw [List.takeWhile_append_of_pos hall]
    rcases hrest.cases with rfl | ⟨more, rfl⟩ | ⟨more, rfl⟩ <;> simp [Text.isDigit]
  have hdrop : (Nat.toDigits 10 n ++ rest).dropWhile Text.isDigit = rest := by
    rw [List.dropWhile_append_of_pos hall]
    rcases hrest.cases with rfl | ⟨more, rfl⟩ | ⟨more, rfl⟩ <;> rfl
  rw [parseNumber, htake, hdrop, hempty, leadingZero_toDigits]
  rcases hrest.cases with rfl | ⟨more, rfl⟩ | ⟨more, rfl⟩ <;> rfl

theorem integerDatum_toDigits {n : Nat} (hn : n < UInt64.size) :
    integerDatum false (Nat.toDigits 10 n) = .int n := by
  unfold integerDatum
  rw [Text.digitsValue_toDigits, if_neg Bool.false_ne_true, if_pos hn]

theorem integerDatum_negative {n : Nat} (hpos : 0 < n) (hn : Int64.minValue.toInt ≤ -(n : Int)) :
    integerDatum true (Nat.toDigits 10 n) = .int (-(n : Int)) := by
  have hzero : (n == 0) = false := beq_eq_false_iff_ne.2 (by omega)
  have hlow : decide (-(n : Int) < Int64.minValue.toInt) = false := decide_eq_false (by omega)
  unfold integerDatum
  rw [Text.digitsValue_toDigits, if_pos rfl, hzero, hlow, Bool.or_false, if_neg Bool.false_ne_true]

theorem isSpace_of_isDigit {c : Char} (hc : Text.isDigit c = true) : isSpace c = false := by
  have hne (d : Char) (hd : Text.isDigit d = false) : (c == d) = false := by
    rw [beq_eq_false_iff_ne]
    rintro rfl
    rw [hc] at hd
    cases hd
  rw [isSpace, hne ' ' rfl, hne '\n' rfl, hne '\t' rfl, hne '\r' rfl]
  rfl

/-- A digit opens a number. -/
theorem parseValue_digit (fuel : Nat) {c : Char} (hc : Text.isDigit c = true) (rest : List Char) :
    parseValue (fuel + 1) (c :: rest) = parseNumber false (c :: rest) := by
  have hne (d : Char) (hd : Text.isDigit d = false) : c ≠ d := fun h => by
    rw [h, hd] at hc
    cases hc
  have hskip : skipSpace (c :: rest) = c :: rest :=
    List.dropWhile_cons_of_neg (by rw [isSpace_of_isDigit hc]; exact Bool.false_ne_true)
  have hbrace := hne '\x7b' rfl
  have hbracket := hne '[' rfl
  have hquote := hne '"' rfl
  have hn := hne 'n' rfl
  have ht := hne 't' rfl
  have hf := hne 'f' rfl
  have hminus := hne '-' rfl
  rw [parseValue, hskip]
  split <;> simp_all

/-- **An integer is read back.** -/
theorem parseValue_intChars (fuel : Nat) {n : Int} (hlow : Int64.minValue.toInt ≤ n) (hhigh : n < UInt64.size)
    {rest : List Char} (hrest : Closes rest) :
    parseValue (fuel + 1) (intChars n ++ rest) = some (.int n, rest) := by
  cases n with
  | ofNat n =>
    have hn : n < UInt64.size := Int.ofNat_lt.1 hhigh
    have hread := parseNumber_toDigits false n hrest
    rw [integerDatum_toDigits hn] at hread
    have hall := Text.all_isDigit_toDigits n
    rw [intChars]
    cases hdigits : Nat.toDigits 10 n with
    | nil => exact absurd hdigits Nat.toDigits_ne_nil
    | cons c cs =>
      rw [hdigits] at hread hall
      rw [List.all_cons, Bool.and_eq_true] at hall
      rw [List.cons_append, parseValue_digit fuel hall.1]
      exact hread
  | negSucc n =>
    have hread := parseNumber_toDigits true (n + 1) hrest
    rw [integerDatum_negative n.succ_pos (by rw [Int.negSucc_eq] at hlow; exact_mod_cast hlow)] at hread
    exact hread

/-! ## Trees -/

/-- A bracket that is not closed at once opens the items of a list. -/
theorem parseValue_list (fuel : Nat) {cs : List Char} (h : ∀ more, skipSpace cs ≠ ']' :: more) :
    parseValue (fuel + 1) ('[' :: cs) =
      (parseItems fuel (skipSpace cs)).map fun (items, rest) => (.list items, rest) := by
  have hopen : skipSpace ('[' :: cs) = '[' :: cs := rfl
  simp only [parseValue, hopen]
  cases parseItems fuel (skipSpace cs) <;> rfl

/-- A brace that is not closed at once opens the entries of a record. -/
theorem parseValue_record (fuel : Nat) {cs : List Char} (h : ∀ more, skipSpace cs ≠ '\x7d' :: more) :
    parseValue (fuel + 1) ('\x7b' :: cs) =
      (parseEntries fuel [] (skipSpace cs)).map fun (entries, rest) => (.record entries, rest) := by
  have hopen : skipSpace ('\x7b' :: cs) = '\x7b' :: cs := rfl
  simp only [parseValue, hopen]
  cases parseEntries fuel [] (skipSpace cs) <;> rfl

/-- A value starts with no blank, and not as a list ends. -/
theorem prettyChars_cons (level : Nat) {d : Datum} (hd : d.IsSayable) :
    ∃ c cs, prettyChars level d = c :: cs ∧ isSpace c = false ∧ c ≠ ']' := by
  cases hd with
  | null => exact ⟨'n', _, rfl, rfl, by decide⟩
  | bool value =>
    cases value with
    | false => exact ⟨'f', _, rfl, rfl, by decide⟩
    | true => exact ⟨'t', _, rfl, rfl, by decide⟩
  | @int value =>
    cases value with
    | negSucc n => exact ⟨'-', _, rfl, rfl, by decide⟩
    | ofNat n =>
      have hall := Text.all_isDigit_toDigits n
      cases hdigits : Nat.toDigits 10 n with
      | nil => exact absurd hdigits Nat.toDigits_ne_nil
      | cons c cs =>
        rw [hdigits, List.all_cons, Bool.and_eq_true] at hall
        refine ⟨c, cs, hdigits, isSpace_of_isDigit hall.1, ?_⟩
        rintro rfl
        exact absurd hall.1 (by decide)
  | text value => exact ⟨'"', _, rfl, rfl, by decide⟩
  | @list items => cases items <;> exact ⟨'[', _, rfl, rfl, by decide⟩
  | @record entries => cases entries <;> exact ⟨'\x7b', _, rfl, rfl, by decide⟩

theorem prettyItems_cases (level : Nat) (items : List Datum) :
    (∃ more, prettyItems level items = ',' :: more) ∨ ∃ more, prettyItems level items = '\n' :: more := by
  cases items with
  | nil => exact .inr ⟨_, rfl⟩
  | cons item items => exact .inl ⟨_, rfl⟩

theorem prettyEntries_cases (level : Nat) (entries : List (String × Datum)) :
    (∃ more, prettyEntries level entries = ',' :: more) ∨ ∃ more, prettyEntries level entries = '\n' :: more := by
  cases entries with
  | nil => exact .inr ⟨_, rfl⟩
  | cons entry entries => exact .inl ⟨_, rfl⟩

theorem closes_append {cs : List Char} (h : (∃ more, cs = ',' :: more) ∨ ∃ more, cs = '\n' :: more)
    (rest : List Char) : Closes (cs ++ rest) := by
  rcases h with ⟨more, rfl⟩ | ⟨more, rfl⟩
  · exact closes_comma _
  · exact closes_lineEnd _

theorem length_pos_of_cases {cs : List Char} (h : (∃ more, cs = ',' :: more) ∨ ∃ more, cs = '\n' :: more) :
    0 < cs.length := by
  rcases h with ⟨more, rfl⟩ | ⟨more, rfl⟩ <;> exact Nat.succ_pos _

/-- A key that is new goes to the end. -/
theorem putEntry_of_not_mem {key : String} {value : Datum} {seen : List (String × Datum)}
    (h : key ∉ seen.map Prod.fst) : Datum.putEntry key value seen = seen ++ [(key, value)] := by
  induction seen with
  | nil => rfl
  | cons e seen ih =>
    rw [List.map_cons, List.mem_cons, not_or] at h
    rw [Datum.putEntry, if_neg (Ne.symm h.1), ih h.2, List.cons_append]

/-- **Printed values, items and entries are read back** with a fuel of their length. -/
structure ReadsBack (fuel : Nat) : Prop where
  value (level : Nat) {d : Datum} {rest : List Char} (hd : d.IsSayable) (hrest : Closes rest)
    (hfuel : (prettyChars level d).length ≤ fuel) : parseValue fuel (prettyChars level d ++ rest) = some (d, rest)
  items (level : Nat) {item : Datum} {items : List Datum} (rest : List Char)
    (hitems : ∀ d ∈ item :: items, d.IsSayable)
    (hfuel : (prettyChars (level + 1) item).length + (prettyItems level items).length ≤ fuel) :
    parseItems fuel (prettyChars (level + 1) item ++ (prettyItems level items ++ rest)) = some (item :: items, rest)
  entries (level : Nat) (seen : List (String × Datum)) {key : String} {value : Datum}
    {entries : List (String × Datum)} (rest : List Char)
    (hkeys : ((seen ++ (key, value) :: entries).map Prod.fst).Nodup)
    (hvalues : ∀ e ∈ (key, value) :: entries, e.2.IsSayable)
    (hfuel : (quoteChars key).length + (prettyChars (level + 1) value).length + (prettyEntries level entries).length
      ≤ fuel) :
    parseEntries fuel seen (quoteChars key ++ ':' :: ' ' ::
      (prettyChars (level + 1) value ++ (prettyEntries level entries ++ rest))) =
        some (seen ++ (key, value) :: entries, rest)

theorem skipSpace_quoteChars (s : String) (rest : List Char) :
    skipSpace (quoteChars s ++ rest) = quoteChars s ++ rest :=
  rfl

section

variable {fuel : Nat} (ih : ReadsBack fuel) (level : Nat) (rest : List Char)

include ih

theorem ReadsBack.items_succ {item : Datum} {items : List Datum} (hitems : ∀ d ∈ item :: items, d.IsSayable)
    (hfuel : (prettyChars (level + 1) item).length + (prettyItems level items).length ≤ fuel + 1) :
    parseItems (fuel + 1) (prettyChars (level + 1) item ++ (prettyItems level items ++ rest)) =
      some (item :: items, rest) := by
  have hpos := length_pos_of_cases (prettyItems_cases level items)
  have hitem := ih.value (level + 1) (hitems item List.mem_cons_self)
    (closes_append (prettyItems_cases level items) rest) (by omega)
  rw [parseItems, hitem]
  cases items with
  | nil =>
    have hskip : skipSpace (prettyItems level [] ++ rest) = ']' :: rest := by
      rw [prettyItems, List.append_assoc, skipSpace_lineStart]
      rfl
    simp only [Option.bind_eq_bind, Option.bind_some, hskip]
    rfl
  | cons next items =>
    have hskip : skipSpace (prettyItems level (next :: items) ++ rest) =
        ',' :: (lineStart (level + 1) ++ (prettyChars (level + 1) next ++ (prettyItems level items ++ rest))) := by
      rw [prettyItems, List.cons_append, List.append_assoc, List.append_assoc]
      rfl
    rw [prettyItems, List.length_cons, List.length_append, List.length_append] at hfuel
    have hitems := ih.items level rest (fun d hd => hitems d (List.mem_cons_of_mem item hd)) (by omega)
    simp only [Option.bind_eq_bind, Option.bind_some, hskip, parseItems_lineStart, hitems]
    rfl

theorem ReadsBack.entries_succ {seen : List (String × Datum)} {key : String} {value : Datum}
    {entries : List (String × Datum)} (hkeys : ((seen ++ (key, value) :: entries).map Prod.fst).Nodup)
    (hvalues : ∀ e ∈ (key, value) :: entries, e.2.IsSayable)
    (hfuel : (quoteChars key).length + (prettyChars (level + 1) value).length + (prettyEntries level entries).length
      ≤ fuel + 1) :
    parseEntries (fuel + 1) seen (quoteChars key ++ ':' :: ' ' ::
      (prettyChars (level + 1) value ++ (prettyEntries level entries ++ rest))) =
        some (seen ++ (key, value) :: entries, rest) := by
  have hpos := length_pos_of_cases (prettyEntries_cases level entries)
  have hquoted := length_quoteChars key
  obtain ⟨body, hbody, htext⟩ := @parseText_quoteChars fuel key (':' :: ' ' ::
    (prettyChars (level + 1) value ++ (prettyEntries level entries ++ rest))) (by omega)
  have hsayable : value.IsSayable := hvalues _ List.mem_cons_self
  have hvalue := ih.value (level + 1) hsayable (closes_append (prettyEntries_cases level entries) rest) (by omega)
  have hblank (cs : List Char) : skipSpace (' ' :: cs) = skipSpace cs := rfl
  have hspace := (parseValue_congr (hblank _)).trans hvalue
  have hnew : key ∉ seen.map Prod.fst := by
    rw [List.map_append, List.nodup_append] at hkeys
    exact fun hmem => hkeys.2.2 key hmem key List.mem_cons_self rfl
  have hcolon (cs : List Char) : skipSpace (':' :: cs) = ':' :: cs := rfl
  rw [parseEntries, skipSpace_quoteChars, hbody]
  simp only [Option.bind_eq_bind, htext, Option.bind_some, hcolon, hspace, putEntry_of_not_mem hnew]
  cases entries with
  | nil =>
    have hskip : skipSpace (prettyEntries level [] ++ rest) = '\x7d' :: rest := by
      rw [prettyEntries, List.append_assoc, skipSpace_lineStart]
      rfl
    rw [hskip]
    rfl
  | cons next entries =>
    obtain ⟨key', value'⟩ := next
    have hskip : skipSpace (prettyEntries level ((key', value') :: entries) ++ rest) =
        ',' :: (lineStart (level + 1) ++ (quoteChars key' ++ ':' :: ' ' ::
          (prettyChars (level + 1) value' ++ (prettyEntries level entries ++ rest)))) := by
      simp only [prettyEntries, List.cons_append, List.append_assoc]
      rfl
    simp only [prettyEntries, List.length_cons, List.length_append] at hfuel
    have hentries := ih.entries level (seen ++ [(key, value)]) rest
      (by rwa [List.append_assoc, List.singleton_append])
      (fun e he => hvalues e (List.mem_cons_of_mem _ he)) (by omega)
    rw [hskip]
    change parseEntries fuel (seen ++ [(key, value)]) (lineStart (level + 1) ++ _) = _
    rw [parseEntries_lineStart, hentries, List.append_assoc, List.singleton_append]

/-- A value is read back by its sort; a list or a record that has something in it leaves that to the readers above. -/
theorem ReadsBack.value_succ {d : Datum} (hd : d.IsSayable) (hrest : Closes rest)
    (hfuel : (prettyChars level d).length ≤ fuel + 1) :
    parseValue (fuel + 1) (prettyChars level d ++ rest) = some (d, rest) := by
  cases hd with
  | null => rfl
  | bool value => cases value <;> rfl
  | int hlow hhigh => exact parseValue_intChars fuel hlow hhigh hrest
  | text value =>
    obtain ⟨body, hbody, htext⟩ := parseText_quoteChars value rest hfuel
    have hskip : skipSpace ('"' :: body) = '"' :: body := rfl
    rw [prettyChars, hbody, parseValue, hskip]
    simp only [Option.bind_eq_bind, htext, Option.bind_some]
    rfl
  | @list items hitems =>
    cases items with
    | nil => rfl
    | cons item items =>
      obtain ⟨c, cs, hchars, hspace, hbracket⟩ := prettyChars_cons (level + 1) (hitems item List.mem_cons_self)
      have hskip : skipSpace (lineStart (level + 1) ++ c :: (cs ++ (prettyItems level items ++ rest))) =
          c :: (cs ++ (prettyItems level items ++ rest)) := by
        rw [skipSpace_lineStart]
        exact List.dropWhile_cons_of_neg (by rw [hspace]; exact Bool.false_ne_true)
      rw [prettyChars, List.length_cons, List.length_append, List.length_append] at hfuel
      have hread := ih.items level rest hitems (by omega)
      rw [hchars, List.cons_append] at hread
      simp only [prettyChars, hchars, List.cons_append, List.append_assoc]
      rw [parseValue_list fuel (by rw [hskip]; exact fun more heq => hbracket (List.cons.inj heq).1), hskip, hread]
      rfl
  | @record entries hkeys hvalues =>
    cases entries with
    | nil => rfl
    | cons entry entries =>
      obtain ⟨key, value⟩ := entry
      have hskip (cs : List Char) :
          skipSpace (lineStart (level + 1) ++ (quoteChars key ++ cs)) = quoteChars key ++ cs := by
        rw [skipSpace_lineStart, skipSpace_quoteChars]
      simp only [prettyChars, List.length_cons, List.length_append] at hfuel
      have hread := ih.entries level [] rest hkeys hvalues (by omega)
      simp only [prettyChars, List.cons_append, List.append_assoc]
      rw [parseValue_record fuel (by rw [hskip]; exact fun more heq => absurd (List.cons.inj heq).1 (by decide)), hskip,
        hread]
      rfl

end

theorem readsBack (fuel : Nat) : ReadsBack fuel := by
  induction fuel with
  | zero =>
    refine ⟨fun level d rest hd _ hfuel => ?_, fun level item items rest _ hfuel => ?_,
      fun level seen key value entries rest _ _ hfuel => ?_⟩
    · obtain ⟨c, cs, hchars, -⟩ := prettyChars_cons level hd
      rw [hchars] at hfuel
      cases hfuel
    · have := length_pos_of_cases (prettyItems_cases level items)
      omega
    · have := length_pos_of_cases (prettyEntries_cases level entries)
      omega
  | succ fuel ih =>
    exact ⟨fun level _ rest hd hrest hfuel => ih.value_succ level rest hd hrest hfuel,
      fun level _ _ rest hitems hfuel => ih.items_succ level rest hitems hfuel,
      fun level _ _ _ _ rest hkeys hvalues hfuel => ih.entries_succ level rest hkeys hvalues hfuel⟩

/-- **Printed data are read back**, also with blanks behind them that start with a line end. -/
theorem parse?_pretty {d : Datum} (hd : d.IsSayable) : parse? (pretty d ++ "\n") = some d := by
  have hchars : (pretty d ++ "\n").toList = prettyChars 0 d ++ ['\n'] := by
    rw [String.toList_append, pretty, String.toList_ofList]
    rfl
  have hread := (readsBack ((prettyChars 0 d ++ ['\n']).length + 1)).value 0 hd (closes_lineEnd [])
    (by rw [List.length_append]; omega)
  unfold parse?
  rw [hchars]
  dsimp only
  rw [hread]
  rfl

end Json

end FormWiring
