import FormWiring.Code.Token
import Mathlib.Data.List.TakeWhile

/-!
# Texts that are one identifier

A text is read as an identifier when one word is all the code it holds. The lexer drops blanks and comments before it
looks, so the text is that word with a gap before it and a gap behind it, and different texts may hold the same word.
A word is made of name characters only; in particular it holds no blank and no delimiter.

Main statement: `holdsWord_of_identifier?`.
-/

set_option autoImplicit false

namespace FormWiring.Code

/-! ## Gaps -/

/-- **Comments** as they are written: up to the end of a line, or between its two marks. -/
inductive IsComment : List Char → Prop where
  | line {text : List Char} (h : '\n' ∉ text) : IsComment ('/' :: '/' :: text)
  | block (text : List Char) : IsComment ('/' :: '*' :: (text ++ ['*', '/']))

/-- **Gaps**: blanks and comments, and nothing else. -/
inductive Gap : List Char → Prop where
  | nil : Gap []
  | blank {c : Char} {cs : List Char} (hc : isCodeBlank c = true) (h : Gap cs) : Gap (c :: cs)
  | comment {text cs : List Char} (htext : IsComment text) (h : Gap cs) : Gap (text ++ cs)

/-- What follows a line is a rest of the text, and what is dropped holds no line end. -/
theorem exists_line (cs : List Char) : ∃ line, cs = line ++ afterLine cs ∧ '\n' ∉ line := by
  induction cs using afterLine.induct with
  | case1 => exact ⟨[], rfl, List.not_mem_nil⟩
  | case2 rest => exact ⟨[], rfl, List.not_mem_nil⟩
  | case3 rest => exact ⟨['\r'], rfl, by decide⟩
  | case4 c rest hn hr ih =>
    obtain ⟨line, hline, hfree⟩ := ih
    refine ⟨c :: line, ?_, ?_⟩
    · rw [afterLine]
      · rw [List.cons_append, ← hline]
      · exact hn
      · exact hr
    · intro hmem
      rcases List.mem_cons.1 hmem with h | h
      · exact hn h.symm
      · exact hfree h

/-- What follows a block comment is a rest of the text, and its closing marks stand before it. -/
theorem exists_block {depth : Nat} {cs rest : List Char} (h : afterBlock? depth cs = some rest) :
    ∃ text, cs = text ++ ('*' :: '/' :: rest) := by
  induction depth, cs using afterBlock?.induct with
  | case1 depth more ih =>
    rw [afterBlock?] at h
    obtain ⟨text, htext⟩ := ih h
    exact ⟨'/' :: '*' :: text, by rw [htext]; rfl⟩
  | case2 depth more hdepth =>
    rw [afterBlock?, if_pos hdepth] at h
    cases h
    exact ⟨[], rfl⟩
  | case3 depth more hdepth ih =>
    rw [afterBlock?, if_neg hdepth] at h
    obtain ⟨text, htext⟩ := ih h
    exact ⟨'*' :: '/' :: text, by rw [htext]; rfl⟩
  | case4 depth c more hopen hclose ih =>
    rw [afterBlock?] at h
    · obtain ⟨text, htext⟩ := ih h
      exact ⟨c :: text, by rw [htext]; rfl⟩
    · exact hopen
    · exact hclose
  | case5 depth => cases h

/-- A line comment is dropped up to the end of its line. -/
theorem exists_comment_of_line (more : List Char) :
    ∃ text, IsComment text ∧ '/' :: '/' :: more = text ++ afterLine ('/' :: '/' :: more) := by
  obtain ⟨line, hline, hfree⟩ := exists_line more
  have hafter : afterLine ('/' :: '/' :: more) = afterLine more := by
    rw [afterLine, afterLine] <;> simp
  exact ⟨'/' :: '/' :: line, .line hfree, by rw [hafter, List.cons_append, List.cons_append, ← hline]⟩

/-- A block comment is dropped up to its closing marks. -/
theorem exists_comment_of_block {more rest : List Char} (h : afterBlock? 0 ('/' :: '*' :: more) = some rest) :
    ∃ text, IsComment text ∧ '/' :: '*' :: more = text ++ rest := by
  have hinside : afterBlock? 1 more = some rest := by
    rw [afterBlock?] at h
    exact h
  obtain ⟨text, htext⟩ := exists_block hinside
  exact ⟨_, .block text, by rw [htext]; simp⟩

/-- A comment that is dropped stands before the gap that follows it. -/
theorem exists_gap_of_comment {cs rest left : List Char} (hcomment : ∃ text, IsComment text ∧ cs = text ++ rest)
    (hrest : ∃ gap, Gap gap ∧ rest = gap ++ left) : ∃ gap, Gap gap ∧ cs = gap ++ left := by
  obtain ⟨text, htext, rfl⟩ := hcomment
  obtain ⟨gap, hgap, rfl⟩ := hrest
  exact ⟨text ++ gap, .comment htext hgap, by rw [List.append_assoc]⟩

/-- **What the lexer drops is a gap**: blanks and comments only. -/
theorem exists_gap (fuel : Nat) (cs : List Char) : ∃ gap, Gap gap ∧ cs = gap ++ skipBlanks fuel cs := by
  have hstays : ∀ cs : List Char, ∃ gap, Gap gap ∧ cs = gap ++ cs := fun cs => ⟨[], .nil, rfl⟩
  fun_induction skipBlanks fuel cs with
  | case1 cs => exact hstays cs
  | case2 fuel tail ih => exact exists_gap_of_comment (exists_comment_of_line _) ih
  | case3 => exact hstays _
  | case4 => exact hstays _
  | case5 fuel tail _ _ _ ih => exact exists_gap_of_comment (exists_comment_of_line _) ih
  | case6 fuel rest ih => exact exists_gap_of_comment ⟨['/', '*', '*', '/'], .block [], rfl⟩ ih
  | case7 fuel tail rest hblock ih =>
    rw [hblock]
    exact exists_gap_of_comment (exists_comment_of_block hblock) ih
  | case8 fuel tail hblock =>
    rw [hblock]
    exact hstays _
  | case9 => exact hstays _
  | case10 => exact hstays _
  | case11 fuel tail _ _ _ _ rest hblock ih =>
    rw [hblock]
    exact exists_gap_of_comment (exists_comment_of_block hblock) ih
  | case12 fuel tail _ _ _ _ hblock =>
    rw [hblock]
    exact hstays _
  | case13 fuel c rest _ _ _ _ _ _ _ _ _ hblank ih =>
    obtain ⟨gap, hgap, hrest⟩ := ih
    exact ⟨c :: gap, .blank hblank hgap, by rw [List.cons_append, ← hrest]⟩
  | case14 => exact hstays _
  | case15 => exact hstays []

/-! ## Words -/

/-- **Words**: plain names, and raw ones with their mark. -/
inductive IsWord : List Char → Prop where
  | plain {c : Char} {cs : List Char} (hc : startsName c = true) (hcs : ∀ d ∈ cs, Text.isNameChar d = true) :
      IsWord (c :: cs)
  | raw {c : Char} {cs : List Char} (hc : startsName c = true) (hcs : ∀ d ∈ cs, Text.isNameChar d = true) :
      IsWord ('r' :: '#' :: c :: cs)

/-- The characters of words. -/
theorem IsWord.forall_mem {cs : List Char} (h : IsWord cs) :
    ∀ d ∈ cs, d = '#' ∨ startsName d = true ∨ Text.isNameChar d = true := by
  have hplain : ∀ {c : Char} {cs : List Char}, startsName c = true → (∀ d ∈ cs, Text.isNameChar d = true) →
      ∀ d ∈ c :: cs, d = '#' ∨ startsName d = true ∨ Text.isNameChar d = true := by
    intro c cs hc hcs d hd
    rcases List.mem_cons.1 hd with rfl | hrest
    · exact .inr (.inl hc)
    · exact .inr (.inr (hcs d hrest))
  cases h with
  | plain hc hcs => exact hplain hc hcs
  | raw hc hcs =>
    intro d hd
    rcases List.mem_cons.1 hd with rfl | hd
    · exact .inr (.inl (by decide))
    · rcases List.mem_cons.1 hd with rfl | hd
      · exact .inl rfl
      · exact hplain hc hcs d hd

theorem consumed_append (front rest : List Char) : consumed (front ++ rest) rest = front := by
  unfold consumed
  rw [List.length_append, Nat.add_sub_cancel, List.take_left]

theorem exists_of_afterPlainName? {cs rest : List Char} (h : afterPlainName? cs = some rest) :
    ∃ c more, cs = (c :: more) ++ rest ∧ startsName c = true ∧ ∀ d ∈ more, Text.isNameChar d = true := by
  cases cs with
  | nil => cases h
  | cons c tail =>
    rw [afterPlainName?] at h
    by_cases hc : startsName c = true
    · rw [if_pos hc] at h
      cases h
      refine ⟨c, tail.takeWhile Text.isNameChar, ?_, hc, fun d hd => List.mem_takeWhile_imp hd⟩
      rw [List.cons_append, List.takeWhile_append_dropWhile]
    · rw [if_neg hc] at h
      cases h

/-- **What is read as a name is a word.** -/
theorem isWord_consumed {cs rest : List Char} (h : afterName? cs = some rest) :
    IsWord (consumed cs rest) ∧ cs = consumed cs rest ++ rest := by
  unfold afterName? at h
  split at h
  · next more =>
    obtain ⟨after, hafter, hraw⟩ := Option.bind_eq_some_iff.1 h
    have hrest : after = rest := by
      split at hraw
      · cases hraw
      · exact Option.some.inj hraw
    subst hrest
    obtain ⟨c, name, rfl, hc, hname⟩ := exists_of_afterPlainName? hafter
    have hconsumed := consumed_append ('r' :: '#' :: c :: name) after
    rw [List.cons_append, List.cons_append] at hconsumed
    rw [hconsumed]
    exact ⟨.raw hc hname, rfl⟩
  · obtain ⟨c, name, rfl, hc, hname⟩ := exists_of_afterPlainName? h
    rw [consumed_append]
    exact ⟨.plain hc hname, rfl⟩

/-! ## Texts that hold one word -/

theorem exists_mark_of_scanMark? {cs rest : List Char} {lexeme : Lexeme} (h : scanMark? cs = some (lexeme, rest)) :
    ∃ c joined, lexeme = .mark c joined := by
  unfold scanMark? at h
  obtain ⟨⟨c, more⟩, -, h⟩ := Option.bind_eq_some_iff.1 h
  dsimp only at h
  split at h
  · obtain ⟨after, -, h⟩ := Option.bind_eq_some_iff.1 h
    split at h
    · cases h
    · split at h
      · cases h
      · cases h
        exact ⟨_, _, rfl⟩
  · cases h
    exact ⟨_, _, rfl⟩

theorem afterName?_of_afterNameToken? {cs rest : List Char} (h : afterNameToken? cs = some rest) :
    afterName? cs = some rest := by
  unfold afterNameToken? at h
  split at h
  · cases h
  · exact h

/-- **What one token is**: a literal, a mark, or a word at the front of the text. -/
theorem scanToken?_cases {cs rest : List Char} {lexeme : Lexeme} (h : scanToken? cs = some (lexeme, rest)) :
    (∃ text, lexeme = .literal text) ∨ (∃ c joined, lexeme = .mark c joined) ∨
      ∃ w, lexeme = .word w ∧ IsWord w.toList ∧ cs = w.toList ++ rest := by
  unfold scanToken? at h
  split at h
  · cases h
    exact .inl ⟨_, rfl⟩
  · split at h
    · next found hmark =>
      cases h
      exact .inr (.inl (exists_mark_of_scanMark? hmark))
    · obtain ⟨after, hafter, heq⟩ := Option.map_eq_some_iff.1 h
      cases heq
      obtain ⟨hword, hcs⟩ := isWord_consumed (afterName?_of_afterNameToken? hafter)
      refine .inr (.inr ⟨_, rfl, ?_⟩)
      rw [String.toList_ofList]
      exact ⟨hword, hcs⟩

/-- **What a text outside of groups starts with**, behind its gap, and the lexemes it has: nothing, documentation, a
group or a token. -/
inductive Scanned : List Char → List Lexeme → Prop where
  | nothing : Scanned [] []
  | documentation (left : List Char) (more : List Lexeme) : Scanned left (.mark '#' false :: more)
  | group (left : List Char) (d : Delimiter) (more : List Lexeme) : Scanned left (.opening d :: more)
  | token {left rest : List Char} {lexeme : Lexeme} {fuel : Nat} {more : List Lexeme}
      (htoken : scanToken? left = some (lexeme, rest)) (hmore : scanAll fuel [] rest = some more) :
      Scanned left (lexeme :: more)

/-- **A step of the lexer** outside of groups. -/
theorem scanned_of_scanAll {fuel : Nat} {cs : List Char} {lexemes : List Lexeme}
    (h : scanAll fuel [] cs = some lexemes) : ∃ gap left, Gap gap ∧ cs = gap ++ left ∧ Scanned left lexemes := by
  cases fuel with
  | zero => cases h
  | succ fuel =>
    obtain ⟨gap, hgap, hcs⟩ := exists_gap (cs.length + 1) cs
    rw [scanAll] at h
    generalize skipBlanks (cs.length + 1) cs = left at h hcs
    refine ⟨gap, left, hgap, hcs, ?_⟩
    dsimp only at h
    split at h
    · obtain ⟨more, -, rfl⟩ := Option.map_eq_some_iff.1 h
      exact .documentation left _
    · split at h
      · cases h
        exact .nothing
      · split at h
        · obtain ⟨more, -, rfl⟩ := Option.map_eq_some_iff.1 h
          exact .group _ _ more
        · cases h
        · obtain ⟨⟨lexeme, rest⟩, htoken, h⟩ := Option.bind_eq_some_iff.1 h
          obtain ⟨more, hmore, rfl⟩ := Option.map_eq_some_iff.1 h
          exact .token htoken hmore

/-- Outside of groups no group ends. -/
theorem scanAll_ne_closing {fuel : Nat} {cs : List Char} {d : Delimiter} {more : List Lexeme} :
    scanAll fuel [] cs ≠ some (.closing d :: more) := by
  intro h
  obtain ⟨gap, left, -, -, hleft⟩ := scanned_of_scanAll h
  cases hleft with
  | token htoken hmore => rcases scanToken?_cases htoken with ⟨_, h⟩ | ⟨_, _, h⟩ | ⟨_, h, -⟩ <;> cases h

/-- A text without lexemes is a gap. -/
theorem Gap.of_scanAll_nil {fuel : Nat} {cs : List Char} (h : scanAll fuel [] cs = some []) : Gap cs := by
  obtain ⟨gap, left, hgap, hcs, hleft⟩ := scanned_of_scanAll h
  cases hleft with
  | nothing =>
    rw [List.append_nil] at hcs
    rw [hcs]
    exact hgap

/-- A text whose only lexeme is a word is that word between two gaps. -/
theorem exists_gaps_of_scanAll {fuel : Nat} {cs : List Char} {w : String} (h : scanAll fuel [] cs = some [.word w]) :
    ∃ lead trail, Gap lead ∧ Gap trail ∧ IsWord w.toList ∧ cs = lead ++ (w.toList ++ trail) := by
  obtain ⟨gap, left, hgap, hcs, hleft⟩ := scanned_of_scanAll h
  cases hleft with
  | @token left rest lexeme fuel more htoken hmore =>
    rcases scanToken?_cases htoken with ⟨_, hword⟩ | ⟨_, _, hword⟩ | ⟨w', hword, hisWord, hfront⟩
    · cases hword
    · cases hword
    · cases hword
      exact ⟨gap, rest, hgap, .of_scanAll_nil hmore, hisWord, by rw [hcs, hfront]⟩

/-- Lexemes that nest to one word are that word: no group could end behind it. -/
theorem eq_word_of_nest {fuel : Nat} {cs : List Char} {lexemes : List Lexeme} {w : String}
    (hscan : scanAll fuel [] cs = some lexemes) (hnest : (Token.nest (lexemes.length + 1) lexemes).1 = [.word w]) :
    lexemes = [.word w] := by
  obtain ⟨gap, left, -, -, hleft⟩ := scanned_of_scanAll hscan
  cases hleft with
  | nothing => cases hnest
  | documentation left more => cases hnest
  | group left d more =>
    rw [Token.nest] at hnest
    cases hnest
  | @token left rest lexeme fuel more htoken hmore =>
    rcases scanToken?_cases htoken with ⟨text, rfl⟩ | ⟨c, joined, rfl⟩ | ⟨w', rfl, -⟩
    · rw [Token.nest] at hnest
      cases hnest
    · rw [Token.nest] at hnest
      cases hnest
    · rw [Token.nest, List.length_cons] at hnest
      obtain ⟨hw, hnil⟩ := List.cons.inj hnest
      cases hw
      -- what is behind the word nests to nothing, so it starts with the end of a group if with anything
      cases more with
      | nil => rfl
      | cons next more =>
        rw [List.length_cons] at hnil
        cases next with
        | closing d => exact absurd hmore scanAll_ne_closing
        | opening d => cases hnil
        | word text => cases hnil
        | mark c joined => cases hnil
        | literal text => cases hnil

/-- **A text holds a word**: a gap stands before it and another behind it, and maybe a byte order mark in front. -/
def HoldsWord (s w : String) : Prop :=
  ∃ lead trail, Gap lead ∧ Gap trail ∧ IsWord w.toList ∧
    (s.toList = lead ++ (w.toList ++ trail) ∨ s.toList = '\ufeff' :: (lead ++ (w.toList ++ trail)))

/-- **A text that is read as an identifier** holds it. -/
theorem holdsWord_of_identifier? {s w : String} (h : identifier? s = some w) : HoldsWord s w := by
  obtain ⟨tokens, htokens, hrun⟩ := Option.bind_eq_some_iff.1 h
  obtain ⟨lexemes, hscan, rfl⟩ := Option.map_eq_some_iff.1 htokens
  have hnest : (Token.nest (lexemes.length + 1) lexemes).1 = [.word w] := by
    generalize (Token.nest (lexemes.length + 1) lexemes).1 = tokens at hrun
    unfold Reader.run? Reader.name at hrun
    split at hrun
    · next heq =>
      cases hrun
      split at heq
      · split at heq
        · cases heq
        · cases heq
          rfl
      · cases heq
    · cases hrun
  unfold scan? at hscan
  have hlexemes := eq_word_of_nest hscan hnest
  rw [hlexemes] at hscan
  obtain ⟨lead, trail, hlead, htrail, hword, hcs⟩ := exists_gaps_of_scanAll hscan
  refine ⟨lead, trail, hlead, htrail, hword, ?_⟩
  split at hcs
  · next rest hmark => exact .inr (by rw [hmark, hcs])
  · exact .inl hcs

end FormWiring.Code
