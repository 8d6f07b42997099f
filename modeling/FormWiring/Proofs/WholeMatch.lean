import FormWiring.Proofs.ReadingGroups
import FormWiring.Proofs.RegexMatching
import FormWiring.Check

/-!
# Patterns of whole values

The text of a pattern is put in a group between the anchors of the text, and only the whole is read. Where the text does
not close that group itself, the whole is a pattern exactly when the text is one on its own, and it is found in just the
values that the text matches from end to end; a comment that takes the closing text in, or a group beyond the limits,
leaves no pattern at all. A text that closes the group is no pattern on its own, and it may be accepted all the same:
the anchors then hold of its parts only.

Main definitions: `Regex.ClosesGroup`, `StaysInGroup`, `MatchesWhole`. Main statement: `accepts_iff_matchesWhole`.
-/

set_option autoImplicit false

namespace FormWiring.Regex

variable {cs : List Char}

/-! ## Texts read as bodies -/

/-- **Body of a text**, up to a bracket that closes nothing in it or to its end. -/
def bodyOf? (cs : List Char) : Option (Body × List Char) :=
  readBody? (4 * cs.length + 4) ⟨{}, [], [], []⟩ cs

/-- **A text closes a group** that it has not opened. -/
def ClosesGroup (cs : List Char) : Prop :=
  ∃ b rest, bodyOf? cs = some (b, ')' :: rest)

/-- **Size** within the limits. -/
def WithinLimits (p : Pattern) : Prop :=
  p.depth ≤ depthLimit ∧ p.cost ≤ costLimit

theorem ofChars?_eq_some_iff {p : Pattern} :
    Pattern.ofChars? cs = some p ↔ ∃ b, bodyOf? cs = some (b, []) ∧ b.pattern = p ∧ WithinLimits p := by
  unfold Pattern.ofChars? bodyOf?
  rcases readBody? (4 * cs.length + 4) ⟨{}, [], [], []⟩ cs with _ | ⟨b, rest⟩
  · simp
  · simp only [Option.bind_some, bind, WithinLimits]
    cases rest with
    | nil =>
      simp only [List.isEmpty_nil]
      constructor
      · intro h
        split_ifs at h with hlimits
        cases h
        exact ⟨b, rfl, rfl, by simpa using hlimits⟩
      · rintro ⟨b, ⟨⟩, rfl, hdepth, hcost⟩
        simp [hdepth, hcost]
    | cons c rest => simp

theorem ofChars?_of_nil {b : Body} (h : bodyOf? cs = some (b, [])) (p : Pattern) :
    Pattern.ofChars? cs = some p ↔ b.pattern = p ∧ WithinLimits p := by
  rw [ofChars?_eq_some_iff, h]
  constructor
  · rintro ⟨b', ⟨⟩, hp⟩
    exact hp
  · exact fun hp => ⟨b, rfl, hp⟩

theorem ofChars?_eq_none (h : ∀ b, bodyOf? cs ≠ some (b, [])) : Pattern.ofChars? cs = none := by
  rw [Option.eq_none_iff_forall_not_mem]
  intro p hp
  obtain ⟨b, hbody, -⟩ := ofChars?_eq_some_iff.1 hp
  exact h b hbody

/-- A text that closes a group is no pattern on its own. -/
theorem ofChars?_eq_none_of_closesGroup (h : ClosesGroup cs) : Pattern.ofChars? cs = none := by
  obtain ⟨b, rest, hbody⟩ := h
  exact ofChars?_eq_none fun b' heq => nomatch hbody.symm.trans heq

/-! ## Texts in a group -/

theorem skipBlanks_of_not_verbose {flags : Flags} (h : flags.verbose = false) (cs : List Char) :
    skipBlanks flags cs = cs := by
  cases cs with
  | nil => rfl
  | cons c rest => simp [skipBlanks_cons, h]

/-- **Text in a group** between the anchors. -/
def wrapped (cs : List Char) : List Char :=
  '^' :: '(' :: '?' :: ':' :: (cs ++ closing 1)

/-- **Pattern in a group** between the anchors. -/
def Pattern.anchored (p : Pattern) : Pattern :=
  .sequence [.anchor .textStart, .group p, .anchor .textEnd]

/-- **Body after the first anchor.** -/
def Body.afterStart : Body :=
  ⟨{}, [], [], [some (.anchor .textStart)]⟩

theorem readBody?_head (fuel : Nat) (cs : List Char) :
    readBody? (fuel + 4) ⟨{}, [], [], []⟩ ('^' :: '(' :: '?' :: ':' :: cs) =
      ((readBody? fuel ⟨{}, [], [], []⟩ cs).bind fun (inner, rest) => closeGroup? .afterStart inner rest).bind
        fun (b, rest) => readBody? (fuel + 2) b rest := by
  have hskip (cs : List Char) : skipBlanks {} cs = cs := skipBlanks_of_not_verbose rfl cs
  have hlooks : looksAround ('?' :: ':' :: cs) = false := by
    simp [looksAround, List.isPrefixOf]
  have hstart : readPiece? (fuel + 3) ⟨{}, [], [], []⟩ '^' ('(' :: '?' :: ':' :: cs) =
      some (.afterStart, '(' :: '?' :: ':' :: cs) := rfl
  have hgroup : readPiece? (fuel + 2) .afterStart '(' ('?' :: ':' :: cs) =
      readGroup? (fuel + 2) .afterStart (skipBlanks {} ('?' :: ':' :: cs)) := rfl
  have hinner : readGroup? (fuel + 2) .afterStart ('?' :: ':' :: cs) = readInner? (fuel + 1) .afterStart {} cs := by
    rw [readGroup?_eq, hlooks]
    rfl
  rw [readBody?_of_ne _ (hskip _) (by decide), hstart, Option.bind_some]
  dsimp only
  rw [readBody?_of_ne _ (hskip _) (by decide), hgroup, hskip, hinner, readInner?_eq]
  rfl

theorem bodyOf?_wrapped (cs : List Char) :
    bodyOf? (wrapped cs) =
      ((readBody? (4 * cs.length + 24) ⟨{}, [], [], []⟩ (cs ++ closing 1)).bind fun (inner, rest) =>
        closeGroup? .afterStart inner rest).bind fun (b, rest) => readBody? (4 * cs.length + 26) b rest := by
  have hfuel : 4 * (wrapped cs).length + 4 = 4 * cs.length + 24 + 4 := by
    simp [wrapped, closing]
    omega
  unfold bodyOf?
  rw [hfuel]
  exact readBody?_head _ _

/-- **The closing text closes the group** where the inside ends before it. -/
theorem ofChars?_wrapped_of_closing {b : Body}
    (h : readBody? (4 * cs.length + 24) ⟨{}, [], [], []⟩ (cs ++ closing 1) = some (b, closing 1)) (w : Pattern) :
    Pattern.ofChars? (wrapped cs) = some w ↔ b.pattern.anchored = w ∧ WithinLimits w := by
  have hbody : bodyOf? (wrapped cs) =
      some (({ Body.afterStart with names := b.names }.push (.group b.pattern)).push (.anchor .textEnd), []) := by
    rw [bodyOf?_wrapped, h]
    rfl
  exact ofChars?_of_nil hbody w

/-- **No group** where the inside has no end, or ends with the whole text. -/
theorem ofChars?_wrapped_of_nil
    (h : ∀ b rest, readBody? (4 * cs.length + 24) ⟨{}, [], [], []⟩ (cs ++ closing 1) = some (b, rest) → rest = []) :
    Pattern.ofChars? (wrapped cs) = none := by
  have hbody : bodyOf? (wrapped cs) = none := by
    rw [bodyOf?_wrapped]
    rcases hread : readBody? (4 * cs.length + 24) ⟨{}, [], [], []⟩ (cs ++ closing 1) with _ | ⟨b, rest⟩
    · rfl
    · rw [h b rest hread]
      rfl
  exact ofChars?_eq_none fun b heq => nomatch hbody.symm.trans heq

theorem exists_append_closing_of_suffix {n : Nat} {rest : List Char} (h : ')' :: rest <:+ cs ++ closing n) :
    ∃ more, ')' :: rest = more ++ closing n := by
  rcases List.suffix_or_suffix_of_suffix h (List.suffix_append cs (closing n)) with hshort | hlong
  · rcases List.suffix_cons_iff.1 hshort with heq | hdollars
    · exact ⟨[], heq⟩
    · have hmem := hdollars.subset List.mem_cons_self
      simp [List.mem_replicate] at hmem
  · obtain ⟨more, heq⟩ := hlong
    exact ⟨more, heq.symm⟩

theorem withinLimits_anchored_iff {p : Pattern} :
    WithinLimits p.anchored ↔ p.depth + 2 ≤ depthLimit ∧ p.cost + 96 ≤ costLimit := by
  simp only [WithinLimits, Pattern.anchored, Pattern.depth, Pattern.depthOfAll, Pattern.cost, Pattern.costOfAll]
  omega

/-- A text and the inside of its group agree. -/
theorem agrees_bodyOf? (cs : List Char) {fuel : Nat} (hfuel : 4 * cs.length + 9 ≤ fuel) :
    Agrees (closing 1) Always (bodyOf? cs) (readBody? fuel ⟨{}, [], [], []⟩ (cs ++ closing 1)) :=
  agrees_readBody? _ (trails_append _ cs) (by omega) (by simp [closing]; omega)

theorem ofChars?_wrapped_of_none (h : bodyOf? cs = none) : Pattern.ofChars? (wrapped cs) = none := by
  refine ofChars?_wrapped_of_nil fun b rest hread => ?_
  rcases readBody?_stops _ _ _ hread with rfl | ⟨more, rfl⟩
  · rfl
  · obtain ⟨left, hleft⟩ := exists_append_closing_of_suffix (leaves_readBody? _ _ _ _ _ hread)
    have hbody := (agrees_bodyOf? cs (by omega)).back b left (hleft ▸ hread) trivial
    cases h.symm.trans hbody

theorem exists_trails_of_nil {b : Body} (h : bodyOf? cs = some (b, [])) :
    ∃ rest, Trails (closing 1) [] rest ∧ bodyOf? (cs ++ closing 1) = some (b, rest) ∧
      readBody? (4 * cs.length + 24) ⟨{}, [], [], []⟩ (cs ++ closing 1) = some (b, rest) := by
  have hlength : 4 * (cs ++ closing 1).length + 4 = 4 * cs.length + 12 := by
    simp [closing]
    omega
  obtain ⟨rest, hread, htrails⟩ := (agrees_bodyOf? cs (Nat.le_add_right _ 3)).forth b [] h
  refine ⟨rest, htrails, ?_, readBody?_of_le (by omega) hread⟩
  rw [bodyOf?, hlength]
  exact hread

/-- **Text in a group.** Where a text does not close the group itself, the whole is a pattern exactly when the text is
one on its own, does not hide the closing text in a comment, and the group is within the limits. -/
theorem ofChars?_wrapped_iff (hcloses : ¬ClosesGroup cs) (w : Pattern) :
    Pattern.ofChars? (wrapped cs) = some w ↔
      ∃ p, Pattern.ofChars? cs = some p ∧ Pattern.ofChars? (cs ++ closing 1) = none ∧ p.anchored = w ∧
        WithinLimits w := by
  rcases hbody : bodyOf? cs with _ | ⟨b, rest⟩
  · have hnone : Pattern.ofChars? cs = none := ofChars?_eq_none fun b heq => nomatch hbody.symm.trans heq
    simp [ofChars?_wrapped_of_none hbody, hnone]
  rcases readBody?_stops _ _ _ hbody with rfl | ⟨more, rfl⟩
  · obtain ⟨rest, htrails, hread, hinner⟩ := exists_trails_of_nil hbody
    simp only [ofChars?_of_nil hbody]
    cases htrails with
    -- A comment is open at the end of the text.
    | nothing =>
      rw [ofChars?_wrapped_of_nil fun b' rest h => (Prod.mk.inj (Option.some.inj (h.symm.trans hinner))).2]
      refine ⟨nofun, ?_⟩
      rintro ⟨p, hp, hcomment, -⟩
      cases hcomment.symm.trans ((ofChars?_of_nil hread p).2 hp)
    | other =>
      rw [ofChars?_wrapped_of_closing hinner]
      constructor
      · rintro ⟨rfl, hlimits⟩
        have hown : WithinLimits b.pattern := by
          obtain ⟨hdepth, hcost⟩ := withinLimits_anchored_iff.1 hlimits
          exact ⟨by omega, by omega⟩
        have hcomment : Pattern.ofChars? (cs ++ closing 1) = none :=
          ofChars?_eq_none fun b' heq => nomatch hread.symm.trans heq
        exact ⟨b.pattern, ⟨rfl, hown⟩, hcomment, rfl, hlimits⟩
      · rintro ⟨p, ⟨rfl, -⟩, -, rfl, hlimits⟩
        exact ⟨rfl, hlimits⟩
  · exact absurd ⟨b, more, hbody⟩ hcloses

end FormWiring.Regex

namespace FormWiring

open Regex (Pattern ClosesGroup depthLimit costLimit)

/-! ## Values -/

/-- **Text that stays in a group**: what is put behind it is no comment of it, and the group is within the limits. -/
structure StaysInGroup (regex : String) (p : Pattern) : Prop where
  closed : Pattern.ofText? (regex ++ ")$") = none
  depth : p.depth + 2 ≤ depthLimit
  cost : p.cost + 96 ≤ costLimit

/-- **Whole match**: the text is a pattern on its own that stays in a group and matches all of the characters. -/
def MatchesWhole (regex : String) (cs : List Char) : Prop :=
  ∃ p, Pattern.ofText? regex = some p ∧ StaysInGroup regex p ∧ Pattern.Matches cs.toArray p 0 cs.length

theorem wholePattern?_eq_some_iff {regex : String} (hcloses : ¬ClosesGroup regex.toList) (w : Pattern) :
    wholePattern? regex = some w ↔
      ∃ p, Pattern.ofText? regex = some p ∧ StaysInGroup regex p ∧ p.anchored = w := by
  have htext : wholePattern? regex = Pattern.ofChars? (Regex.wrapped regex.toList) := by
    simp [wholePattern?, Pattern.ofText?, Regex.wrapped, Regex.closing]
  have hcomment : Pattern.ofText? (regex ++ ")$") = Pattern.ofChars? (regex.toList ++ Regex.closing 1) := by
    simp [Pattern.ofText?, Regex.closing]
  rw [htext, Regex.ofChars?_wrapped_iff hcloses]
  refine exists_congr fun p => and_congr_right fun _ => ?_
  constructor
  · rintro ⟨hclosed, rfl, hlimits⟩
    obtain ⟨hdepth, hcost⟩ := Regex.withinLimits_anchored_iff.1 hlimits
    exact ⟨⟨hcomment.trans hclosed, hdepth, hcost⟩, rfl⟩
  · rintro ⟨⟨hclosed, hdepth, hcost⟩, rfl⟩
    exact ⟨hcomment.symm.trans hclosed, rfl, Regex.withinLimits_anchored_iff.2 ⟨hdepth, hcost⟩⟩

theorem matchesPattern_iff {regex : String} (hcloses : ¬ClosesGroup regex.toList) (cs : List Char) :
    matchesPattern regex cs = true ↔ MatchesWhole regex cs := by
  rw [matchesPattern, Option.any_eq_true]
  simp only [wholePattern?_eq_some_iff hcloses]
  constructor
  · rintro ⟨_, ⟨p, hp, hstays, rfl⟩, hfound⟩
    exact ⟨p, hp, hstays, Pattern.isFoundIn_anchored_iff.1 hfound⟩
  · rintro ⟨p, hp, hstays, hmatches⟩
    exact ⟨p.anchored, ⟨p, hp, hstays, rfl⟩, Pattern.isFoundIn_anchored_iff.2 hmatches⟩

/-- **Patterns match the whole value**, as long as their text does not close the group it is put in: a value is accepted
exactly when the text is a pattern on its own that stays in a group and matches all of the value. -/
theorem accepts_iff_matchesWhole {regex : String} (hcloses : ¬ClosesGroup regex.toList) :
    (∀ required value, Text.trimChars value.toList ≠ [] →
      ((FieldCheck.tested (.pattern regex) required).accepts value = true ↔
        MatchesWhole regex (Text.trimChars value.toList))) ∧
    ∀ (min : Int64) value, regex ≠ "" → value ≠ "" →
      ((FieldCheck.password min regex).accepts value = true ↔
        min.toInt ≤ value.toList.length ∧ MatchesWhole regex value.toList) := by
  refine ⟨fun required value hvalue => ?_, fun min value hregex hvalue => ?_⟩
  · rw [← matchesPattern_iff hcloses]
    simp [FieldCheck.accepts, acceptsTrimmed, hvalue, TextTest.accepts]
  · rw [← matchesPattern_iff hcloses]
    simp [FieldCheck.accepts, acceptsPassword, hvalue, hregex]

theorem matchesWhole_either :
    (¬ClosesGroup "a|b".toList ∧ Text.trimChars " b ".toList ≠ [] ∧ "a|b" ≠ "" ∧ "ab" ≠ "") ∧
      MatchesWhole "a|b" (Text.trimChars " b ".toList) ∧ ¬MatchesWhole "a|b" "ab".toList ∧
      ClosesGroup "a)|(?:b".toList ∧ Pattern.ofText? "a)|(?:b" = none ∧
      (FieldCheck.tested (.pattern "a)|(?:b") true).accepts "ax" = true := by
  have hopen : (Regex.bodyOf? "a|b".toList).map Prod.snd = some [] := by decide
  have hcloses : ¬ClosesGroup "a|b".toList := by
    rintro ⟨b, rest, hbody⟩
    rw [hbody] at hopen
    cases hopen
  have hclosed : (Regex.bodyOf? "a)|(?:b".toList).map Prod.snd = some ")|(?:b".toList := by decide
  have hcloses' : ClosesGroup "a)|(?:b".toList := by
    obtain ⟨⟨b, rest⟩, hbody, hrest⟩ := Option.map_eq_some_iff.1 hclosed
    exact ⟨b, "|(?:b".toList, by rw [hbody, show rest = ")|(?:b".toList from hrest]; rfl⟩
  have hvalue : Text.trimChars " b ".toList ≠ [] := by decide
  have hb : (FieldCheck.tested (.pattern "a|b") true).accepts " b " = true := by decide +kernel
  have hab : (FieldCheck.password 1 "a|b").accepts "ab" = false := by decide +kernel
  have hpattern := (accepts_iff_matchesWhole hcloses).1 true " b " hvalue
  have hpassword := (accepts_iff_matchesWhole hcloses).2 1 "ab" (by decide) (by decide)
  refine ⟨⟨hcloses, hvalue, by decide, by decide⟩, hpattern.1 hb, fun hmatches => ?_, hcloses',
    Regex.ofChars?_eq_none_of_closesGroup hcloses', by decide +kernel⟩
  have haccepts := hpassword.2 ⟨by decide, hmatches⟩
  rw [hab] at haccepts
  cases haccepts

end FormWiring
