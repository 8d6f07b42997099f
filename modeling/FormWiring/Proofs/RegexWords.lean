import FormWiring.Proofs.RegexMatching
import Mathlib.Computability.Language
import Mathlib.Data.List.Forall2

/-!
# Words of patterns

What a pattern matches depends on the characters alone as long as it asks nothing of a position: the pattern spells a
language, and it matches just the stretches of a text that are words of the language. A sequence spells the product of
what its parts spell and a repetition the powers of what is repeated, so the language of a pattern is put together from
the languages of its parts.

Main definition: `Pattern.Spells`. Main statement: `isFoundIn_enclosed_iff`.
-/

set_option autoImplicit false

namespace FormWiring.Regex

open scoped Computability

/-! ## Languages -/

/-- **Words of one character** of a set. -/
def CharSet.letters (s : CharSet) : Language Char :=
  {w | ∃ c, s.contains c = true ∧ w = [c]}

/-- **Words repeated**, a number of times within bounds. -/
def repeated (least : Nat) (most : Option Nat) (L : Language Char) : Language Char :=
  {w | ∃ n, least ≤ n ∧ (∀ m ∈ most, n ≤ m) ∧ w ∈ L ^ n}

/-- **A language reaches** a position of a text from another by one of its words. -/
def Reaches (L : Language Char) (cs : List Char) (i j : Nat) : Prop :=
  ∃ w ∈ L, w <+: cs.drop i ∧ j = i + w.length

variable {s : CharSet} {L M : Language Char} {cs w : List Char} {i j k n : Nat}

theorem CharSet.mem_letters_iff : w ∈ s.letters ↔ ∃ c, s.contains c = true ∧ w = [c] :=
  Iff.rfl

/-- **Words of sets in a row**, one character of each. -/
def CharSet.words (sets : List CharSet) : Language Char :=
  {w | List.Forall₂ (fun s c => s.contains c = true) sets w}

theorem CharSet.mem_words_iff {sets : List CharSet} :
    w ∈ CharSet.words sets ↔ List.Forall₂ (fun s c => s.contains c = true) sets w :=
  Iff.rfl

theorem CharSet.words_nil : CharSet.words [] = 1 := by
  ext w
  rw [mem_words_iff, Language.mem_one, List.forall₂_nil_left_iff]

theorem CharSet.words_cons (s : CharSet) (sets : List CharSet) : words (s :: sets) = s.letters * words sets := by
  ext w
  rw [mem_words_iff, List.forall₂_cons_left_iff, Language.mem_mul]
  constructor
  · rintro ⟨c, v, hc, hv, rfl⟩
    exact ⟨[c], ⟨c, hc, rfl⟩, v, hv, rfl⟩
  · rintro ⟨_, ⟨c, hc, rfl⟩, v, hv, rfl⟩
    exact ⟨c, v, hc, hv, rfl⟩

theorem mem_repeated_iff {least : Nat} {most : Option Nat} :
    w ∈ repeated least most L ↔ ∃ n, least ≤ n ∧ (∀ m ∈ most, n ≤ m) ∧ w ∈ L ^ n :=
  Iff.rfl

theorem CharSet.mem_letters_pow_iff :
    w ∈ s.letters ^ n ↔ w.length = n ∧ ∀ c ∈ w, s.contains c = true := by
  induction n generalizing w with
  | zero =>
    rw [pow_zero, Language.mem_one, List.length_eq_zero_iff]
    constructor
    · rintro rfl
      exact ⟨rfl, List.forall_mem_nil _⟩
    · exact fun h => h.1
  | succ n ih =>
    rw [pow_succ', Language.mem_mul]
    constructor
    · rintro ⟨_, ⟨c, hc, rfl⟩, v, hv, rfl⟩
      obtain ⟨hlength, hall⟩ := ih.1 hv
      refine ⟨by simpa using hlength, ?_⟩
      exact List.forall_mem_cons.2 ⟨hc, hall⟩
    · rintro ⟨hlength, hall⟩
      obtain ⟨c, v, rfl⟩ := List.exists_cons_of_length_eq_add_one hlength
      obtain ⟨hc, hv⟩ := List.forall_mem_cons.1 hall
      exact ⟨[c], ⟨c, hc, rfl⟩, v, ih.2 ⟨by simpa using hlength, hv⟩, rfl⟩

/-- **Characters of a set repeated** are texts of a length within the bounds. -/
theorem CharSet.mem_repeated_letters_iff {least : Nat} {most : Option Nat} :
    w ∈ repeated least most s.letters ↔
      least ≤ w.length ∧ (∀ m ∈ most, w.length ≤ m) ∧ ∀ c ∈ w, s.contains c = true := by
  simp only [mem_repeated_iff, CharSet.mem_letters_pow_iff]
  constructor
  · rintro ⟨n, hleast, hmost, rfl, hall⟩
    exact ⟨hleast, hmost, hall⟩
  · rintro ⟨hleast, hmost, hall⟩
    exact ⟨w.length, hleast, hmost, rfl, hall⟩

theorem mem_repeated_optional_iff : w ∈ repeated 0 (some 1) L ↔ w = [] ∨ w ∈ L := by
  rw [mem_repeated_iff]
  constructor
  · rintro ⟨n, -, hmost, hw⟩
    have hn : n ≤ 1 := hmost 1 rfl
    obtain rfl | rfl : n = 0 ∨ n = 1 := by omega
    · rw [pow_zero] at hw
      exact .inl hw
    · rw [pow_one] at hw
      exact .inr hw
  · rintro (rfl | hw)
    · exact ⟨0, le_rfl, fun _ _ => Nat.zero_le _, rfl⟩
    · refine ⟨1, Nat.zero_le _, ?_, by rwa [pow_one]⟩
      rintro m ⟨⟩
      exact le_rfl

theorem mem_repeated_star_iff : w ∈ repeated 0 none L ↔ w ∈ L∗ := by
  rw [Language.kstar_eq_iSup_pow, Language.mem_iSup, mem_repeated_iff]
  refine exists_congr fun n => ?_
  simp

/-! ## Positions reached -/

theorem append_prefix_drop_iff {a b : List Char} :
    a ++ b <+: cs.drop i ↔ a <+: cs.drop i ∧ b <+: cs.drop (i + a.length) := by
  have hdrop {more : List Char} (h : a ++ more = cs.drop i) : cs.drop (i + a.length) = more := by
    rw [← List.drop_drop, ← h, List.drop_left]
  constructor
  · intro h
    have ha : a <+: cs.drop i := (List.prefix_append a b).trans h
    obtain ⟨more, hmore⟩ := ha
    rw [← hmore, List.prefix_append_right_inj] at h
    exact ⟨⟨more, hmore⟩, hdrop hmore ▸ h⟩
  · rintro ⟨⟨more, hmore⟩, hb⟩
    rw [hdrop hmore] at hb
    rwa [← hmore, List.prefix_append_right_inj]

/-- A product reaches what its second language reaches from where the first one got. -/
theorem reaches_mul_iff : Reaches (L * M) cs i k ↔ ∃ j, Reaches L cs i j ∧ Reaches M cs j k := by
  constructor
  · rintro ⟨_, ⟨a, ha, b, hb, rfl⟩, hprefix, rfl⟩
    obtain ⟨hfront, hback⟩ := append_prefix_drop_iff.1 hprefix
    refine ⟨i + a.length, ⟨a, ha, hfront, rfl⟩, b, hb, hback, ?_⟩
    rw [List.length_append, Nat.add_assoc]
  · rintro ⟨_, ⟨a, ha, hfront, rfl⟩, b, hb, hback, rfl⟩
    refine ⟨a ++ b, Language.append_mem_mul ha hb, append_prefix_drop_iff.2 ⟨hfront, hback⟩, ?_⟩
    rw [List.length_append, Nat.add_assoc]

theorem reaches_add_iff : Reaches (L + M) cs i j ↔ Reaches L cs i j ∨ Reaches M cs i j := by
  constructor
  · rintro ⟨w, hw | hw, hreach⟩
    · exact .inl ⟨w, hw, hreach⟩
    · exact .inr ⟨w, hw, hreach⟩
  · rintro (⟨w, hw, hreach⟩ | ⟨w, hw, hreach⟩)
    · exact ⟨w, .inl hw, hreach⟩
    · exact ⟨w, .inr hw, hreach⟩

theorem reaches_one_iff : Reaches 1 cs i j ↔ j = i := by
  constructor
  · rintro ⟨_, rfl, -, rfl⟩
    rfl
  · rintro rfl
    exact ⟨[], rfl, List.nil_prefix, rfl⟩

theorem reaches_length_iff : Reaches L cs 0 cs.length ↔ cs ∈ L := by
  constructor
  · rintro ⟨w, hw, hprefix, hlength⟩
    rw [List.drop_zero] at hprefix
    rwa [← hprefix.eq_of_length (by omega)]
  · intro h
    exact ⟨cs, h, by rw [List.drop_zero], (Nat.zero_add _).symm⟩

/-! ## Patterns -/

namespace Pattern

/-- **A pattern spells a language**: it matches what the words of the language reach, in every text. -/
def Spells (p : Pattern) (L : Language Char) : Prop :=
  ∀ (cs : List Char) (i j : Nat), Matches cs.toArray p i j ↔ Reaches L cs i j

variable {p : Pattern} {ps qs : List Pattern}

theorem spells_set (s : CharSet) : Spells (.set s) s.letters := by
  intro cs i j
  rw [matches_set_iff]
  constructor
  · rintro ⟨⟨c, hc, hs⟩, rfl⟩
    rw [List.getElem?_toArray] at hc
    obtain ⟨hi, rfl⟩ := List.getElem?_eq_some_iff.1 hc
    refine ⟨[cs[i]], ⟨cs[i], hs, rfl⟩, ?_, rfl⟩
    rw [List.drop_eq_getElem_cons hi]
    exact ⟨_, rfl⟩
  · rintro ⟨_, ⟨c, hs, rfl⟩, ⟨more, hmore⟩, rfl⟩
    refine ⟨⟨c, ?_, hs⟩, rfl⟩
    rw [List.getElem?_toArray, ← List.head?_drop, ← hmore]
    rfl

theorem spells_empty : Spells .empty 1 := by
  intro cs i j
  rw [matches_empty_iff, reaches_one_iff]

theorem spells_sequence_nil : Spells (.sequence []) 1 := by
  intro cs i j
  rw [matches_sequence_nil_iff, reaches_one_iff]

theorem Spells.sequence_cons (hp : Spells p L) (hps : Spells (.sequence ps) M) :
    Spells (.sequence (p :: ps)) (L * M) := by
  intro cs i k
  rw [matches_sequence_cons_iff, reaches_mul_iff]
  refine exists_congr fun j => ?_
  rw [hp cs i j, hps cs j k]

theorem matches_sequence_append_iff {text : Array Char} :
    Matches text (.sequence (ps ++ qs)) i k ↔
      ∃ j, Matches text (.sequence ps) i j ∧ Matches text (.sequence qs) j k := by
  induction ps generalizing i with
  | nil => simp [matches_sequence_nil_iff]
  | cons p ps ih =>
    simp only [List.cons_append, matches_sequence_cons_iff, ih]
    constructor
    · rintro ⟨a, hp, j, hps, hqs⟩
      exact ⟨j, ⟨a, hp, hps⟩, hqs⟩
    · rintro ⟨j, ⟨a, hp, hps⟩, hqs⟩
      exact ⟨a, hp, j, hps, hqs⟩

theorem Spells.sequence_append (hps : Spells (.sequence ps) L) (hqs : Spells (.sequence qs) M) :
    Spells (.sequence (ps ++ qs)) (L * M) := by
  intro cs i k
  rw [matches_sequence_append_iff, reaches_mul_iff]
  refine exists_congr fun j => ?_
  rw [hps cs i j, hqs cs j k]

/-- **Sets in a row** spell a word of one character of each. -/
theorem spells_sequence_sets (sets : List CharSet) : Spells (.sequence (sets.map .set)) (CharSet.words sets) := by
  induction sets with
  | nil =>
    rw [CharSet.words_nil]
    exact spells_sequence_nil
  | cons s sets ih =>
    rw [CharSet.words_cons]
    exact (spells_set s).sequence_cons ih

theorem Spells.choice_pair {q : Pattern} (hp : Spells p L) (hq : Spells q M) : Spells (.choice [p, q]) (L + M) := by
  intro cs i j
  rw [matches_choice_iff, reaches_add_iff, ← hp cs i j, ← hq cs i j]
  simp

theorem Spells.group (hp : Spells p L) : Spells (.group p) L := by
  intro cs i j
  rw [matches_group_iff]
  exact hp cs i j

theorem Spells.chain_iff (hp : Spells p L) : Chain (Matches cs.toArray p) n i k ↔ Reaches (L ^ n) cs i k := by
  induction n generalizing i with
  | zero => rw [Chain.zero_iff, pow_zero, reaches_one_iff]
  | succ n ih =>
    rw [Chain.succ_iff, pow_succ', reaches_mul_iff]
    refine exists_congr fun j => ?_
    rw [hp cs i j, ih]

theorem Spells.repetition (hp : Spells p L) (least : Nat) (most : Option Nat) :
    Spells (.repetition least most p) (repeated least most L) := by
  intro cs i j
  simp only [matches_repetition_iff, hp.chain_iff]
  constructor
  · rintro ⟨n, hleast, hmost, w, hw, hprefix⟩
    exact ⟨w, ⟨n, hleast, hmost, hw⟩, hprefix⟩
  · rintro ⟨w, ⟨n, hleast, hmost, hw⟩, hprefix⟩
    exact ⟨n, hleast, hmost, w, hw, hprefix⟩

/-! ## Texts -/

/-- **Parts between the anchors of the text** are found in the words that they spell. -/
theorem isFoundIn_enclosed_iff (hps : Spells (.sequence ps) L) :
    (Pattern.sequence (.anchor .textStart :: (ps ++ [.anchor .textEnd]))).isFoundIn cs = true ↔ cs ∈ L := by
  rw [isFoundIn_iff, ← reaches_length_iff]
  simp only [matches_sequence_cons_iff, matches_sequence_append_iff, matches_sequence_nil_iff, matches_anchor_iff,
    hps cs]
  constructor
  · rintro ⟨i, hi, _, _, ⟨⟨-, hstart⟩, rfl⟩, j, hreach, _, ⟨⟨hj, hend⟩, rfl⟩, rfl⟩
    obtain rfl := (holdsAt_textStart_iff (by simpa using hi)).1 hstart
    obtain rfl := (holdsAt_textEnd_iff hj).1 hend
    exact hreach
  · intro hreach
    have hstart : Anchor.textStart.holdsAt cs.toArray 0 = true := (holdsAt_textStart_iff (Nat.zero_le _)).2 rfl
    have hend : Anchor.textEnd.holdsAt cs.toArray cs.length = true := (holdsAt_textEnd_iff (by simp)).2 (by simp)
    exact ⟨0, Nat.zero_le _, cs.length, 0, ⟨⟨Nat.zero_le _, hstart⟩, rfl⟩, cs.length, hreach, cs.length,
      ⟨⟨by simp, hend⟩, rfl⟩, rfl⟩

end Pattern

end FormWiring.Regex
