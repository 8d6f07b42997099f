import FormWiring.Proofs.CaseFolding
import FormWiring.Proofs.EmailGrammar
import FormWiring.Proofs.OptionalValues
import Mathlib

/-!
# The grammar of web addresses

The pattern of a web address asks for one of three schemes and ignores case. It does so for all characters, not just
those of ASCII, and one of its letters has a third form: the long s is an s in another case. So the pattern spells the
grammar of three schemes in capital and small letters and, beside it, a fourth scheme that ends in a long s. The marks
and blanks that the rest of the pattern leaves out have no other case.

Main definition: `Check.IsWebAddress`. Main statement: `accepts_url_iff`.
-/

set_option autoImplicit false

namespace FormWiring

open Regex (CharSet Pattern repeated)

namespace Check

/-! ## The grammar -/

/-- **Mix of cases** of a name in small letters. -/
def IsCaseMix (name w : List Char) : Prop :=
  List.Forall₂ (fun letter c => c = letter ∨ c = letter.toUpper) name w

/-- **Schemes**, in any mix of cases. -/
def IsScheme (w : List Char) : Prop :=
  ∃ name ∈ ["http", "https", "ftp"], IsCaseMix name.toList w

/-- **Marks that start no host.** -/
def hostMarks : List Char :=
  ['/', '$', '.', '?', '#']

/-- **Address with a scheme** of some form: the scheme, a colon and two slashes, one character that is no blank and
none of the marks, and no blank after it. -/
def IsAddressWith (scheme : List Char → Prop) (cs : List Char) : Prop :=
  ∃ w first rest, cs = w ++ ("://".toList ++ first :: rest) ∧ scheme w ∧
    (Text.isBlank first = false ∧ first ∉ hostMarks) ∧ ∀ c ∈ rest, Text.isBlank c = false

/-- **Web address.** -/
def IsWebAddress (cs : List Char) : Prop :=
  IsAddressWith IsScheme cs

/-- **Scheme with a long s** at its end. -/
def IsLongScheme (w : List Char) : Prop :=
  ∃ front, w = front ++ ['\u017f'] ∧ IsCaseMix "http".toList front

/-! ## The pattern -/

/-- **Sets of characters in a row**, each in any case. -/
def anyCaseSets (letters : List Char) : List CharSet :=
  letters.map fun c => .foldCase (.one c)

/-- **Part of the pattern for a scheme.** -/
def schemePart : Pattern :=
  .group (.choice
    [.sequence ((anyCaseSets "http".toList).map .set ++ [.repetition 0 (some 1) (.set (.foldCase (.one 's')))]),
      .sequence ((anyCaseSets "ftp".toList).map .set)])

/-- **Set of the characters left out** after the first of a host: the blanks. -/
def blankSet : CharSet :=
  .union .empty (.ofClass .blank)

/-- **Parts of the pattern for an address**, between the anchors. The flag that ignores case leaves an empty part. -/
def urlParts : List Pattern :=
  .empty :: schemePart :: ((anyCaseSets "://".toList).map .set ++
    [.set (.complement (.foldCase (withMarks blankSet hostMarks))),
      .repetition 0 none (.set (.complement (.foldCase blankSet)))])

set_option maxRecDepth 20000 in
theorem urlPattern?_eq :
    urlPattern? = some (.sequence (.anchor .textStart :: (urlParts ++ [.anchor .textEnd]))) := by
  cbv

/-! ## Characters -/

variable {c : Char} {w cs : List Char}

set_option maxRecDepth 20000 in
/-- Marks of the pattern have no other case. -/
theorem variants_of_mem_marks (h : c ∈ ':' :: hostMarks) : Text.Variants c [c] :=
  Text.variants_of_mem (fun mark => [mark]) (by decide) h

set_option maxRecDepth 20000 in
/-- Letters of the schemes, but for the last one of a scheme, have one other case. -/
theorem variants_of_mem_letters (h : c ∈ "htpf".toList) : Text.Variants c [c, c.toUpper] :=
  Text.variants_of_mem (fun letter => [letter, letter.toUpper]) (by decide) h

set_option maxRecDepth 20000 in
/-- **The letter s** has a third form. -/
theorem variants_s : Text.Variants 's' ['s', 'S', '\u017f'] := by
  decide

theorem contains_blankSet_iff : blankSet.contains c = true ↔ Text.isBlank c = true := by
  simp [blankSet, CharSet.contains, Regex.CharClass.contains]

theorem contains_complement_blankSet_iff :
    (CharSet.complement (.foldCase blankSet)).contains c = true ↔ Text.isBlank c = false := by
  have hcaseless : ∀ d, blankSet.contains d = true → Text.Variants d [d] := fun d hd =>
    Text.variants_of_isBlank (contains_blankSet_iff.1 hd)
  rw [CharSet.contains, Bool.not_eq_true', ← Bool.not_eq_true, CharSet.contains_foldCase_of_caseless hcaseless,
    contains_blankSet_iff, Bool.not_eq_true]

theorem contains_complement_hostMarks_iff :
    (CharSet.complement (.foldCase (withMarks blankSet hostMarks))).contains c = true ↔
      Text.isBlank c = false ∧ c ∉ hostMarks := by
  have hcaseless : ∀ d, (withMarks blankSet hostMarks).contains d = true → Text.Variants d [d] := by
    intro d hd
    rcases contains_withMarks_iff.1 hd with hblank | hmark
    · exact Text.variants_of_isBlank (contains_blankSet_iff.1 hblank)
    · exact variants_of_mem_marks (List.mem_cons_of_mem _ hmark)
  rw [CharSet.contains, Bool.not_eq_true', ← Bool.not_eq_true, CharSet.contains_foldCase_of_caseless hcaseless,
    contains_withMarks_iff, contains_blankSet_iff, not_or, Bool.not_eq_true]

/-- A folded character stands for its variants when case is ignored. -/
theorem contains_anyCase_iff {d : Char} {variants : List Char} (h : Text.Variants d variants) :
    (CharSet.foldCase (.one d)).contains c = true ↔ c ∈ variants := by
  rw [CharSet.contains_foldCase_iff, ← h.mem_caseOrbit_iff]
  constructor
  · rintro ⟨e, horbit, he⟩
    rwa [← contains_one_iff.1 he]
  · intro hd
    exact ⟨d, hd, contains_one_iff.2 rfl⟩

/-! ## Words in any case -/

/-- **Characters in any case** spell the words of their variants. -/
theorem mem_words_anyCaseSets_iff {variants : Char → List Char} {letters : List Char}
    (h : ∀ d ∈ letters, Text.Variants d (variants d)) :
    w ∈ CharSet.words (anyCaseSets letters) ↔ List.Forall₂ (fun d c => c ∈ variants d) letters w := by
  unfold anyCaseSets
  induction letters generalizing w with
  | nil => rw [CharSet.mem_words_iff, List.map_nil, List.forall₂_nil_left_iff, List.forall₂_nil_left_iff]
  | cons d letters ih =>
    obtain ⟨hd, hletters⟩ := List.forall_mem_cons.1 h
    rw [CharSet.mem_words_iff, List.map_cons, List.forall₂_cons_left_iff, List.forall₂_cons_left_iff]
    simp only [contains_anyCase_iff hd, ← CharSet.mem_words_iff, ih hletters]

/-- Letters with no third form spell the mixes of their cases. -/
theorem mem_words_letters_iff {name : List Char} (h : name ⊆ "htpf".toList) :
    w ∈ CharSet.words (anyCaseSets name) ↔ IsCaseMix name w := by
  rw [mem_words_anyCaseSets_iff fun d hd => variants_of_mem_letters (h hd)]
  simp only [List.mem_cons, List.not_mem_nil, or_false]
  rfl

/-- Marks with no other case spell themselves. -/
theorem mem_words_marks_iff {marks : List Char} (h : marks ⊆ ':' :: hostMarks) :
    w ∈ CharSet.words (anyCaseSets marks) ↔ w = marks := by
  rw [mem_words_anyCaseSets_iff fun d hd => variants_of_mem_marks (h hd)]
  simp only [List.mem_singleton]
  rw [eq_comm, ← List.forall₂_eq_eq_eq]
  constructor
  · exact fun hw => hw.imp fun _ _ => Eq.symm
  · exact fun hw => hw.imp fun _ _ => Eq.symm

/-! ## Schemes -/

/-- **Words of the scheme that may end in an s.** -/
def httpWords : Language Char :=
  CharSet.words (anyCaseSets "http".toList) * (repeated 0 (some 1) (CharSet.foldCase (.one 's')).letters * 1)

/-- **Words of a scheme.** -/
def schemeWords : Language Char :=
  httpWords + CharSet.words (anyCaseSets "ftp".toList)

theorem spells_schemePart : Pattern.Spells schemePart schemeWords := by
  have hs := ((Pattern.spells_set (.foldCase (.one 's'))).repetition 0 (some 1)).sequence_cons
    Pattern.spells_sequence_nil
  have hhttp := (Pattern.spells_sequence_sets (anyCaseSets "http".toList)).sequence_append hs
  exact (hhttp.choice_pair (Pattern.spells_sequence_sets (anyCaseSets "ftp".toList))).group

theorem isCaseMix_append_singleton_iff {name : List Char} {letter : Char} :
    IsCaseMix (name ++ [letter]) w ↔
      ∃ front c, IsCaseMix name front ∧ (c = letter ∨ c = letter.toUpper) ∧ w = front ++ [c] := by
  unfold IsCaseMix
  induction name generalizing w with
  | nil => simp [List.forall₂_cons_left_iff]
  | cons d name ih =>
    rw [List.cons_append, List.forall₂_cons_left_iff]
    simp only [ih, List.forall₂_cons_left_iff]
    constructor
    · rintro ⟨b, _, hb, ⟨front, c, hfront, hc, rfl⟩, rfl⟩
      exact ⟨b :: front, c, ⟨b, front, hb, hfront, rfl⟩, hc, rfl⟩
    · rintro ⟨_, c, ⟨b, front, hb, hfront, rfl⟩, hc, rfl⟩
      exact ⟨b, front ++ [c], hb, ⟨front, c, hfront, hc, rfl⟩, rfl⟩

theorem mem_httpWords_iff :
    w ∈ httpWords ↔ IsCaseMix "http".toList w ∨ IsCaseMix "https".toList w ∨ IsLongScheme w := by
  unfold httpWords IsLongScheme
  rw [mul_one, show "https".toList = "http".toList ++ ['s'] from rfl, isCaseMix_append_singleton_iff]
  simp only [Language.mem_mul, Regex.mem_repeated_optional_iff, CharSet.mem_letters_iff,
    mem_words_letters_iff (show "http".toList ⊆ "htpf".toList by decide), contains_anyCase_iff variants_s]
  constructor
  · rintro ⟨front, hfront, _, rfl | ⟨c, hc, rfl⟩, rfl⟩
    · exact .inl (by rwa [List.append_nil])
    · -- the last character is one of the three forms of an s
      simp only [List.mem_cons, List.not_mem_nil, or_false] at hc
      rcases hc with hsmall | hcapital | hlong
      · exact .inr (.inl ⟨front, c, hfront, .inl hsmall, rfl⟩)
      · exact .inr (.inl ⟨front, c, hfront, .inr hcapital, rfl⟩)
      · exact .inr (.inr ⟨front, by rw [hlong], hfront⟩)
  · rintro (hw | ⟨front, c, hfront, hsmall | hcapital, rfl⟩ | ⟨front, rfl, hfront⟩)
    · exact ⟨w, hw, [], .inl rfl, List.append_nil w⟩
    · exact ⟨front, hfront, [c], .inr ⟨c, by simp [hsmall], rfl⟩, rfl⟩
    · exact ⟨front, hfront, [c], .inr ⟨c, by rw [hcapital]; decide, rfl⟩, rfl⟩
    · exact ⟨front, hfront, ['\u017f'], .inr ⟨_, by simp, rfl⟩, rfl⟩

theorem mem_schemeWords_iff : w ∈ schemeWords ↔ IsScheme w ∨ IsLongScheme w := by
  rw [schemeWords, Language.mem_add, mem_httpWords_iff,
    mem_words_letters_iff (show "ftp".toList ⊆ "htpf".toList by decide)]
  simp only [IsScheme, List.mem_cons, List.not_mem_nil, or_false, exists_eq_or_imp, exists_eq_left]
  tauto

/-! ## Addresses -/

/-- **Words of an address.** -/
def urlWords : Language Char :=
  1 * (schemeWords * (CharSet.words (anyCaseSets "://".toList) *
    ((CharSet.complement (.foldCase (withMarks blankSet hostMarks))).letters *
      (repeated 0 none (CharSet.complement (.foldCase blankSet)).letters * 1))))

theorem spells_urlParts : Pattern.Spells (.sequence urlParts) urlWords := by
  have hrest := ((Pattern.spells_set (.complement (.foldCase blankSet))).repetition 0 none).sequence_cons
    Pattern.spells_sequence_nil
  have hhost := (Pattern.spells_set (.complement (.foldCase (withMarks blankSet hostMarks)))).sequence_cons hrest
  have hmarks := (Pattern.spells_sequence_sets (anyCaseSets "://".toList)).sequence_append hhost
  exact Pattern.spells_empty.sequence_cons (spells_schemePart.sequence_cons hmarks)

theorem isUrl_iff_mem : isUrl cs = true ↔ cs ∈ urlWords := by
  unfold isUrl
  rw [urlPattern?_eq, Option.any_some, Pattern.isFoundIn_enclosed_iff spells_urlParts]

theorem mem_urlWords_iff : cs ∈ urlWords ↔ IsAddressWith (fun w => IsScheme w ∨ IsLongScheme w) cs := by
  unfold urlWords IsAddressWith
  rw [one_mul, mul_one]
  simp only [Language.mem_mul, mem_schemeWords_iff, CharSet.mem_letters_iff, CharSet.mem_repeated_letters_iff,
    contains_complement_hostMarks_iff, contains_complement_blankSet_iff,
    mem_words_marks_iff (show "://".toList ⊆ ':' :: hostMarks by decide)]
  constructor
  · rintro ⟨w, hw, _, ⟨_, rfl, _, ⟨_, ⟨first, hfirst, rfl⟩, rest, ⟨-, -, hrest⟩, rfl⟩, rfl⟩, rfl⟩
    exact ⟨w, first, rest, rfl, hw, hfirst, hrest⟩
  · rintro ⟨w, first, rest, rfl, hw, hfirst, hrest⟩
    exact ⟨w, hw, _, ⟨_, rfl, _, ⟨_, ⟨first, hfirst, rfl⟩, rest, ⟨Nat.zero_le _, by simp, hrest⟩, rfl⟩, rfl⟩, rfl⟩

theorem isAddressWith_or_iff {scheme other : List Char → Prop} :
    IsAddressWith (fun w => scheme w ∨ other w) cs ↔ IsAddressWith scheme cs ∨ IsAddressWith other cs := by
  constructor
  · rintro ⟨w, first, rest, hcs, hw | hw, hrest⟩
    · exact .inl ⟨w, first, rest, hcs, hw, hrest⟩
    · exact .inr ⟨w, first, rest, hcs, hw, hrest⟩
  · rintro (⟨w, first, rest, hcs, hw, hrest⟩ | ⟨w, first, rest, hcs, hw, hrest⟩)
    · exact ⟨w, first, rest, hcs, .inl hw, hrest⟩
    · exact ⟨w, first, rest, hcs, .inr hw, hrest⟩

/-- **The pattern is the grammar** and, beside it, the grammar of one scheme more. -/
theorem isUrl_iff : isUrl cs = true ↔ IsWebAddress cs ∨ IsAddressWith IsLongScheme cs := by
  rw [isUrl_iff_mem, mem_urlWords_iff, isAddressWith_or_iff]
  rfl

/-! ## The scheme more -/

theorem not_mem_of_isCaseMix {name : List Char} (hc : c ∉ name ∧ c ∉ name.map Char.toUpper) (h : IsCaseMix name w) :
    c ∉ w := by
  induction h with
  | nil => exact List.not_mem_nil
  | @cons letter d name w hd _ ih =>
    simp only [List.map_cons, List.mem_cons, not_or] at hc ⊢
    refine ⟨?_, ih ⟨hc.1.2, hc.2.2⟩⟩
    rcases hd with rfl | rfl
    · exact hc.1.1
    · exact hc.2.1

theorem not_mem_of_isScheme
    (hc : ∀ name ∈ ["http", "https", "ftp"], c ∉ name.toList ∧ c ∉ name.toList.map Char.toUpper) (h : IsScheme w) :
    c ∉ w := by
  obtain ⟨name, hname, hw⟩ := h
  exact not_mem_of_isCaseMix (hc name hname) hw

/-- What stands before the first colon is the scheme. -/
theorem takeWhile_ne_colon {rest : List Char} (h : ':' ∉ w) :
    (w ++ ("://".toList ++ rest)).takeWhile (· != ':') = w := by
  have hw : ∀ d ∈ w, (d != ':') = true := fun d hd => by
    rw [bne_iff_ne]
    rintro rfl
    exact h hd
  rw [List.takeWhile_append_of_pos hw]
  exact List.append_nil w

/-- An address with a scheme of the grammar has none that ends in a long s. -/
theorem IsWebAddress.not_long (h : IsWebAddress cs) : ¬IsAddressWith IsLongScheme cs := by
  obtain ⟨w, first, rest, rfl, hscheme, -⟩ := h
  rintro ⟨w', first', rest', hcs, ⟨front, rfl, hfront⟩, -⟩
  have hcolon : ':' ∉ front ++ ['\u017f'] := by
    rw [List.mem_append, List.mem_singleton, not_or]
    exact ⟨not_mem_of_isCaseMix (by decide) hfront, by decide⟩
  have hlong : w = front ++ ['\u017f'] := by
    rw [← takeWhile_ne_colon (not_mem_of_isScheme (by decide) hscheme), hcs, takeWhile_ne_colon hcolon]
  have hnone : '\u017f' ∉ w := not_mem_of_isScheme (by decide) hscheme
  exact hnone (hlong ▸ List.mem_append_right front (List.mem_singleton.2 rfl))

end Check

/-! ## The statement -/

/-- **Web addresses are those of the grammar, and those with one scheme more**: a value that is not blank is accepted
exactly when the text between its blanks is an address with a scheme in any mix of cases, or with one that ends in a
long s. So it is accepted just as the grammar says exactly when it has no such scheme. -/
theorem accepts_url_iff (required : Bool) (value : String) (hvalue : Text.isBlankText value = false) :
    ((FieldCheck.tested .url required).accepts value = true ↔
      Check.IsWebAddress (Text.trimChars value.toList) ∨
        Check.IsAddressWith Check.IsLongScheme (Text.trimChars value.toList)) ∧
    (((FieldCheck.tested .url required).accepts value = true ↔ Check.IsWebAddress (Text.trimChars value.toList)) ↔
      ¬Check.IsAddressWith Check.IsLongScheme (Text.trimChars value.toList)) := by
  have haccepts : (FieldCheck.tested .url required).accepts value = true ↔
      Check.IsWebAddress (Text.trimChars value.toList) ∨
        Check.IsAddressWith Check.IsLongScheme (Text.trimChars value.toList) := by
    rw [FieldCheck.accepts_tested_of_not_blank hvalue, TextTest.accepts, Check.isUrl_iff]
  refine ⟨haccepts, ?_⟩
  rw [haccepts]
  constructor
  · intro hsame hlong
    exact (hsame.1 (.inr hlong)).not_long hlong
  · intro hlong
    rw [or_iff_left hlong]

theorem accepts_url_longScheme :
    (Text.isBlankText " HttpS://example.com " = false ∧ Text.isBlankText "http\u017f://example.com" = false) ∧
      (FieldCheck.tested .url true).accepts " HttpS://example.com " = true ∧
      (FieldCheck.tested .url true).accepts "http\u017f://example.com" = true ∧
      ¬Check.IsWebAddress (Text.trimChars "http\u017f://example.com".toList) := by
  have hmixed : Text.isBlankText " HttpS://example.com " = false := by decide
  have hlong : Text.isBlankText "http\u017f://example.com" = false := by decide
  have hrest : ∀ c ∈ "xample.com".toList, Text.isBlank c = false := by simp [Text.isBlank]
  have haddress : Check.IsWebAddress (Text.trimChars " HttpS://example.com ".toList) :=
    ⟨"HttpS".toList, 'e', _, by decide, ⟨"https", by simp, by simp [Check.IsCaseMix]⟩, by decide, hrest⟩
  have hscheme : Check.IsAddressWith Check.IsLongScheme (Text.trimChars "http\u017f://example.com".toList) :=
    ⟨"http\u017f".toList, 'e', _, by decide, ⟨"http".toList, by decide, by simp [Check.IsCaseMix]⟩, by decide, hrest⟩
  have hbroken := (accepts_url_iff true _ hlong).2
  have haccepted := (accepts_url_iff true _ hlong).1.2 (.inr hscheme)
  exact ⟨⟨hmixed, hlong⟩, (accepts_url_iff true _ hmixed).1.2 (.inl haddress), haccepted,
    fun h => hbroken.1 (iff_of_true haccepted h) hscheme⟩

end FormWiring
