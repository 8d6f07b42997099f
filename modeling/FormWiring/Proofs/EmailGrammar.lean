import FormWiring.Check
import FormWiring.Proofs.RegexWords
import Mathlib

/-!
# The grammar of email addresses

The pattern of an address spells a grammar: one at sign, characters of an ASCII set before it, and labels between dots
after it. The pattern says how long a label may be by what stands between its two ends, and it has no word for the
number of at signs or for the split at the dots; these come from what the sets of characters leave out.

Main definition: `Check.IsEmailAddress`. Main statement: `accepts_email_iff`.
-/

set_option autoImplicit false

namespace FormWiring

open Regex (CharSet Pattern repeated)
open scoped Computability

namespace Check

/-! ## The grammar -/

/-- **ASCII letter or digit.** -/
def IsAlphanumeric (c : Char) : Prop :=
  ('a' ≤ c ∧ c ≤ 'z') ∨ ('A' ≤ c ∧ c ≤ 'Z') ∨ ('0' ≤ c ∧ c ≤ '9')

instance (c : Char) : Decidable (IsAlphanumeric c) :=
  inferInstanceAs (Decidable (_ ∨ _ ∨ _))

/-- **Marks before the at sign.** -/
def localMarks : List Char :=
  ['.', '!', '#', '$', '%', '&', '\'', '*', '+', '/', '=', '?', '^', '_', '\x60', '\x7b', '|', '\x7d', '~', '-']

/-- **Label**: 1 to 63 letters, digits and dashes, with no dash at either end. -/
structure IsLabel (cs : List Char) : Prop where
  nonempty : 1 ≤ cs.length
  short : cs.length ≤ 63
  characters : ∀ c ∈ cs, IsAlphanumeric c ∨ c = '-'
  first : ∀ c ∈ cs.head?, IsAlphanumeric c
  last : ∀ c ∈ cs.getLast?, IsAlphanumeric c

/-- **Email address**: exactly one at sign, something before it in the set of characters allowed there, and after it
labels between dots. -/
def IsEmailAddress (cs : List Char) : Prop :=
  cs.count '@' = 1 ∧ ∃ before after, cs = before ++ '@' :: after ∧
    before ≠ [] ∧ (∀ c ∈ before, IsAlphanumeric c ∨ c ∈ localMarks) ∧ ∀ label ∈ after.splitOn '.', IsLabel label

/-! ## The pattern -/

/-- **Set of the ASCII letters and digits.** -/
def alphanumericSet : CharSet :=
  .union (.union (.union .empty (.range 0x61 0x7A)) (.range 0x41 0x5A)) (.range 0x30 0x39)

/-- **Set with marks added.** -/
def withMarks (s : CharSet) (marks : List Char) : CharSet :=
  marks.foldl (fun s c => .union s (.one c)) s

/-- **Parts of the pattern for a label.** -/
def labelParts : List Pattern :=
  [.set alphanumericSet,
    .repetition 0 (some 1) (.group (.sequence
      [.repetition 0 (some 61) (.set (withMarks alphanumericSet ['-'])), .set alphanumericSet]))]

/-- **Parts of the pattern for an address**, between the anchors. -/
def addressParts : List Pattern :=
  [.repetition 1 none (.set (withMarks alphanumericSet localMarks)), .set (.one '@')] ++ (labelParts ++
    [.repetition 0 none (.group (.sequence (.set (.one '.') :: labelParts)))])

set_option maxRecDepth 20000 in
theorem emailPattern?_eq :
    emailPattern? = some (.sequence (.anchor .textStart :: (addressParts ++ [.anchor .textEnd]))) := by
  cbv

/-! ## Sets -/

variable {c : Char} {w cs : List Char}

theorem contains_alphanumericSet_iff : alphanumericSet.contains c = true ↔ IsAlphanumeric c := by
  have hle (a b : Char) : a ≤ b ↔ a.toNat ≤ b.toNat := by
    rw [Char.le_def, UInt32.le_iff_toNat_le]
    rfl
  simp [alphanumericSet, CharSet.contains, IsAlphanumeric, hle, or_assoc]

theorem contains_one_iff {d : Char} : (CharSet.one d).contains c = true ↔ c = d := by
  simp only [CharSet.one, CharSet.contains, Bool.and_eq_true, decide_eq_true_eq]
  rw [← Char.toNat_inj]
  omega

theorem contains_withMarks_iff {s : CharSet} {marks : List Char} :
    (withMarks s marks).contains c = true ↔ s.contains c = true ∨ c ∈ marks := by
  unfold withMarks
  induction marks generalizing s with
  | nil => simp
  | cons d marks ih =>
    rw [List.foldl_cons, ih, CharSet.contains, Bool.or_eq_true, contains_one_iff, List.mem_cons, or_assoc]

/-! ## Labels -/

/-- **Words of a label.** -/
def labelWords : Language Char :=
  alphanumericSet.letters *
    (repeated 0 (some 1) (repeated 0 (some 61) (withMarks alphanumericSet ['-']).letters *
      (alphanumericSet.letters * 1)) * 1)

theorem spells_labelParts : Pattern.Spells (.sequence labelParts) labelWords := by
  have hend : Pattern.Spells (.set alphanumericSet) alphanumericSet.letters := Pattern.spells_set _
  have hinner := (Pattern.spells_set (withMarks alphanumericSet ['-'])).repetition 0 (some 61)
  have hrest := (hinner.sequence_cons (hend.sequence_cons Pattern.spells_sequence_nil)).group
  exact hend.sequence_cons ((hrest.repetition 0 (some 1)).sequence_cons Pattern.spells_sequence_nil)

/-- **Shape of a label**: an end, or two ends and what stands between them. -/
theorem mem_labelWords_iff_shape :
    w ∈ labelWords ↔ ∃ a, IsAlphanumeric a ∧ (w = [a] ∨ ∃ middle b, middle.length ≤ 61 ∧
      (∀ c ∈ middle, IsAlphanumeric c ∨ c = '-') ∧ IsAlphanumeric b ∧ w = a :: (middle ++ [b])) := by
  unfold labelWords
  rw [mul_one, mul_one]
  simp only [Language.mem_mul, Regex.mem_repeated_optional_iff, CharSet.mem_letters_iff,
    CharSet.mem_repeated_letters_iff, contains_alphanumericSet_iff, contains_withMarks_iff, List.mem_singleton]
  constructor
  · rintro ⟨_, ⟨a, ha, rfl⟩, _, rfl | ⟨middle, ⟨-, hlength, hmiddle⟩, _, ⟨b, hb, rfl⟩, rfl⟩, rfl⟩
    · exact ⟨a, ha, .inl rfl⟩
    · exact ⟨a, ha, .inr ⟨middle, b, hlength 61 rfl, hmiddle, hb, rfl⟩⟩
  · rintro ⟨a, ha, rfl | ⟨middle, b, hlength, hmiddle, hb, rfl⟩⟩
    · exact ⟨[a], ⟨a, ha, rfl⟩, [], .inl rfl, rfl⟩
    · have hbound : ∀ m ∈ some 61, middle.length ≤ m := by
        rintro m ⟨⟩
        exact hlength
      exact ⟨[a], ⟨a, ha, rfl⟩, middle ++ [b],
        .inr ⟨middle, ⟨Nat.zero_le _, hbound, hmiddle⟩, [b], ⟨b, hb, rfl⟩, rfl⟩, rfl⟩

theorem mem_labelWords_iff : w ∈ labelWords ↔ IsLabel w := by
  rw [mem_labelWords_iff_shape]
  constructor
  · rintro ⟨a, ha, rfl | ⟨middle, b, hlength, hmiddle, hb, rfl⟩⟩
    · exact ⟨by simp, by simp, by simp [ha], by simp [ha], by simp [ha]⟩
    · refine ⟨by simp, by simp; omega, ?_, by simp [ha], ?_⟩
      · intro c hc
        rw [List.mem_cons, List.mem_append, List.mem_singleton] at hc
        rcases hc with rfl | hc | rfl
        · exact .inl ha
        · exact hmiddle c hc
        · exact .inl hb
      · rw [← List.cons_append, List.getLast?_concat]
        rintro c ⟨⟩
        exact hb
  · intro h
    obtain ⟨a, rest, rfl⟩ := List.exists_cons_of_length_pos h.nonempty
    have ha : IsAlphanumeric a := h.first a rfl
    refine ⟨a, ha, ?_⟩
    -- the last character is the first one, or another one at the end of the rest
    rcases List.eq_nil_or_concat' rest with rfl | ⟨middle, b, rfl⟩
    · exact .inl rfl
    · have hshort := h.short
      have hlast := h.last b (by rw [← List.cons_append, List.getLast?_concat]; rfl)
      rw [List.length_cons, List.length_append, List.length_singleton] at hshort
      refine .inr ⟨middle, b, by omega, ?_, hlast, rfl⟩
      intro c hc
      exact h.characters c (List.mem_cons_of_mem a (List.mem_append_left _ hc))

theorem IsLabel.not_mem {label : List Char} (h : IsLabel label) (hc : ¬ IsAlphanumeric c ∧ c ≠ '-') : c ∉ label := by
  intro hmem
  rcases h.characters c hmem with halphanumeric | hdash
  · exact hc.1 halphanumeric
  · exact hc.2 hdash

/-! ## Domains -/

/-- **Labels, each after a dot.** -/
def dotted (labels : List (List Char)) : List Char :=
  (labels.map ('.' :: ·)).flatten

@[simp] theorem dotted_nil : dotted [] = [] := rfl

@[simp] theorem dotted_cons (label : List Char) (labels : List (List Char)) :
    dotted (label :: labels) = '.' :: (label ++ dotted labels) := rfl

theorem intercalate_cons (label : List Char) (labels : List (List Char)) :
    ['.'].intercalate (label :: labels) = label ++ dotted labels := by
  induction labels generalizing label with
  | nil => rw [List.intercalate_singleton, dotted_nil, List.append_nil]
  | cons next labels ih =>
    rw [List.intercalate_cons_cons, ih, dotted_cons, List.append_assoc, List.singleton_append]

theorem mem_dottedWord_iff :
    w ∈ (CharSet.one '.').letters * labelWords ↔ ∃ label, w = '.' :: label ∧ IsLabel label := by
  simp only [Language.mem_mul, CharSet.mem_letters_iff, contains_one_iff, mem_labelWords_iff]
  constructor
  · rintro ⟨_, ⟨_, rfl, rfl⟩, label, hlabel, rfl⟩
    exact ⟨label, rfl, hlabel⟩
  · rintro ⟨label, rfl, hlabel⟩
    exact ⟨['.'], ⟨'.', rfl, rfl⟩, label, hlabel, rfl⟩

theorem mem_star_dottedWord_iff :
    w ∈ ((CharSet.one '.').letters * labelWords)∗ ↔ ∃ labels, w = dotted labels ∧ ∀ label ∈ labels, IsLabel label := by
  rw [Language.mem_kstar]
  simp only [mem_dottedWord_iff]
  constructor
  · rintro ⟨words, rfl, hwords⟩
    induction words with
    | nil => exact ⟨[], rfl, List.forall_mem_nil _⟩
    | cons word words ih =>
      obtain ⟨hword, hrest⟩ := List.forall_mem_cons.1 hwords
      obtain ⟨label, rfl, hlabel⟩ := hword
      obtain ⟨labels, hdotted, hlabels⟩ := ih hrest
      refine ⟨label :: labels, ?_, List.forall_mem_cons.2 ⟨hlabel, hlabels⟩⟩
      rw [List.flatten_cons, hdotted, dotted_cons, List.cons_append]
  · rintro ⟨labels, rfl, hlabels⟩
    refine ⟨labels.map ('.' :: ·), rfl, ?_⟩
    intro word hword
    obtain ⟨label, hmem, rfl⟩ := List.mem_map.1 hword
    exact ⟨label, rfl, hlabels label hmem⟩

/-- **Words of a domain.** -/
def domainWords : Language Char :=
  labelWords * (repeated 0 none ((CharSet.one '.').letters * labelWords) * 1)

/-- **Split at the dots**: a text is a first label and others after dots just when all it falls into are labels. -/
theorem mem_domainWords_iff : w ∈ domainWords ↔ ∀ label ∈ w.splitOn '.', IsLabel label := by
  unfold domainWords
  rw [mul_one]
  simp only [Language.mem_mul, Regex.mem_repeated_star_iff, mem_labelWords_iff, mem_star_dottedWord_iff]
  constructor
  · rintro ⟨first, hfirst, _, ⟨labels, rfl, hlabels⟩, rfl⟩
    have hall : ∀ label ∈ first :: labels, IsLabel label := List.forall_mem_cons.2 ⟨hfirst, hlabels⟩
    rw [← intercalate_cons, List.splitOn_intercalate '.' (fun l hl => (hall l hl).not_mem (by decide)) (by simp)]
    exact hall
  · intro hall
    obtain ⟨first, labels, hsplit⟩ := List.exists_cons_of_ne_nil (List.splitOn_ne_nil '.' w)
    rw [hsplit] at hall
    obtain ⟨hfirst, hlabels⟩ := List.forall_mem_cons.1 hall
    refine ⟨first, hfirst, dotted labels, ⟨labels, rfl, hlabels⟩, ?_⟩
    rw [← intercalate_cons, ← hsplit, List.intercalate_splitOn]

/-! ## Addresses -/

/-- **Words of an address.** -/
def addressWords : Language Char :=
  repeated 1 none (withMarks alphanumericSet localMarks).letters * ((CharSet.one '@').letters * 1) * domainWords

theorem spells_addressParts : Pattern.Spells (.sequence addressParts) addressWords := by
  have hlocal := (Pattern.spells_set (withMarks alphanumericSet localMarks)).repetition 1 none
  have hat := (Pattern.spells_set (.one '@')).sequence_cons Pattern.spells_sequence_nil
  have hdotted := ((Pattern.spells_set (.one '.')).sequence_cons spells_labelParts).group.repetition 0 none
  have hdomain := spells_labelParts.sequence_append (hdotted.sequence_cons Pattern.spells_sequence_nil)
  exact (hlocal.sequence_cons hat).sequence_append hdomain

theorem isEmail_iff_mem : isEmail cs = true ↔ cs ∈ addressWords := by
  unfold isEmail
  rw [emailPattern?_eq, Option.any_some, Pattern.isFoundIn_enclosed_iff spells_addressParts]

theorem mem_addressWords_iff :
    cs ∈ addressWords ↔ ∃ before after, cs = before ++ '@' :: after ∧
      before ≠ [] ∧ (∀ c ∈ before, IsAlphanumeric c ∨ c ∈ localMarks) ∧ ∀ label ∈ after.splitOn '.', IsLabel label := by
  unfold addressWords
  rw [mul_one]
  simp only [Language.mem_mul, CharSet.mem_repeated_letters_iff, CharSet.mem_letters_iff, contains_withMarks_iff,
    contains_alphanumericSet_iff, contains_one_iff, mem_domainWords_iff]
  constructor
  · rintro ⟨_, ⟨before, ⟨hlength, -, hbefore⟩, _, ⟨_, rfl, rfl⟩, rfl⟩, after, hafter, rfl⟩
    refine ⟨before, after, by simp, List.ne_nil_of_length_pos hlength, hbefore, hafter⟩
  · rintro ⟨before, after, rfl, hne, hbefore, hafter⟩
    have hlength : 1 ≤ before.length := List.length_pos_of_ne_nil hne
    exact ⟨before ++ ['@'], ⟨before, ⟨hlength, by simp, hbefore⟩, ['@'], ⟨'@', rfl, rfl⟩, rfl⟩, after, hafter, by simp⟩

/-- Labels hold no at sign, and neither do the dots between them. -/
theorem at_not_mem_of_labels {after : List Char} (h : ∀ label ∈ after.splitOn '.', IsLabel label) : '@' ∉ after := by
  obtain ⟨first, labels, hsplit⟩ := List.exists_cons_of_ne_nil (List.splitOn_ne_nil '.' after)
  have hafter : ['.'].intercalate (after.splitOn '.') = after := List.intercalate_splitOn '.'
  rw [hsplit] at h
  have hat : ∀ label ∈ first :: labels, '@' ∉ label := fun label hlabel => (h label hlabel).not_mem (by decide)
  rw [← hafter, hsplit, intercalate_cons]
  intro hmem
  rcases List.mem_append.1 hmem with hfirst | hdotted
  · exact hat first List.mem_cons_self hfirst
  · obtain ⟨word, hword, hmem⟩ := List.mem_flatten.1 hdotted
    obtain ⟨label, hlabel, rfl⟩ := List.mem_map.1 hword
    rcases List.mem_cons.1 hmem with hdot | hmem
    · exact absurd hdot (by decide)
    · exact hat label (List.mem_cons_of_mem first hlabel) hmem

/-- **The pattern is the grammar**: an address has its one at sign because neither side may hold another. -/
theorem isEmail_iff : isEmail cs = true ↔ IsEmailAddress cs := by
  rw [isEmail_iff_mem, mem_addressWords_iff]
  constructor
  · rintro ⟨before, after, rfl, hne, hbefore, hafter⟩
    refine ⟨?_, before, after, rfl, hne, hbefore, hafter⟩
    have hat : '@' ∉ before := by
      intro hmem
      exact absurd (hbefore '@' hmem) (by decide)
    rw [List.count_append, List.count_cons_self, List.count_eq_zero_of_not_mem hat,
      List.count_eq_zero_of_not_mem (at_not_mem_of_labels hafter)]
  · exact fun h => h.2

end Check

/-! ## The statement -/

/-- **Email addresses are those of the grammar**: a value that is not blank is accepted exactly when the text between
its blanks has one at sign, characters allowed there before it, and labels between dots after it. -/
theorem accepts_email_iff (required : Bool) (value : String) (hvalue : Text.trimChars value.toList ≠ []) :
    (FieldCheck.tested .email required).accepts value = true ↔
      Check.IsEmailAddress (Text.trimChars value.toList) := by
  have htrimmed : (FieldCheck.tested .email required).accepts value = Check.isEmail (Text.trimChars value.toList) := by
    simp [FieldCheck.accepts, acceptsTrimmed, hvalue, TextTest.accepts]
  rw [htrimmed]
  exact Check.isEmail_iff

theorem accepts_email_padded :
    (Text.trimChars " o'hara@mail.example ".toList ≠ [] ∧ Text.trimChars "ana@mail.-example".toList ≠ []) ∧
      Check.IsEmailAddress (Text.trimChars " o'hara@mail.example ".toList) ∧
      ¬Check.IsEmailAddress (Text.trimChars "ana@mail.-example".toList) := by
  have hpadded : Text.trimChars " o'hara@mail.example ".toList ≠ [] := by decide
  have hdash : Text.trimChars "ana@mail.-example".toList ≠ [] := by decide
  have hverdicts : (FieldCheck.tested .email true).accepts " o'hara@mail.example " = true ∧
      ¬(FieldCheck.tested .email true).accepts "ana@mail.-example" = true := by
    decide +kernel
  rw [accepts_email_iff true _ hpadded, accepts_email_iff true _ hdash] at hverdicts
  exact ⟨⟨hpadded, hdash⟩, hverdicts⟩

end FormWiring
