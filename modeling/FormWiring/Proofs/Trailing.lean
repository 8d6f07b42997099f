import FormWiring.Regex.Parser
import Mathlib.Data.List.Basic
import Mathlib.Data.List.Infix

/-!
# Reading before a closing bracket

What a reader of patterns takes from a text it takes from the text with a closing bracket behind it as well, and leaves
the bracket where it is; and what it takes then without touching the bracket is there without it. One thing is between:
a comment that is open at the end of the text goes on behind it, and then nothing is left.

Main definitions: `Trails`, `Agrees`. Main statements: `Agrees.bind`, `trails_skipBlanks`.
-/

set_option autoImplicit false

namespace FormWiring.Regex

/-! ## What is left -/

/-- **What a reader leaves** is the end of what it was given. -/
def Leaves {α : Type} (read : List Char → Option (α × List Char)) : Prop :=
  ∀ cs x rest, read cs = some (x, rest) → rest <:+ cs

/-- **What a reader leaves** is the end of what it was given, and not all of it. -/
def Consumes {α : Type} (read : List Char → Option (α × List Char)) : Prop :=
  ∀ cs x rest, read cs = some (x, rest) → rest <:+ cs ∧ rest.length < cs.length

theorem Consumes.leaves {α : Type} {read : List Char → Option (α × List Char)} (h : Consumes read) : Leaves read :=
  fun cs x rest hread => (h cs x rest hread).1

theorem Leaves.map {α β : Type} {read : List Char → Option (α × List Char)} (h : Leaves read) (f : α → β) :
    Leaves fun cs => (read cs).map fun (x, rest) => (f x, rest) := by
  intro cs y rest heq
  obtain ⟨⟨x, rest⟩, hread, hx⟩ := Option.map_eq_some_iff.1 heq
  cases hx
  exact h _ _ _ hread

/-- **Result converted**, if it can be. -/
def convert? {α β : Type} (convert : α → Option β) (o : Option (α × List Char)) : Option (β × List Char) :=
  o.bind fun (x, rest) => (convert x).bind fun y => some (y, rest)

theorem convert?_eq_some_iff {α β : Type} {convert : α → Option β} {o : Option (α × List Char)} {y : β}
    {rest : List Char} : convert? convert o = some (y, rest) ↔ ∃ x, o = some (x, rest) ∧ convert x = some y := by
  rcases o with _ | ⟨x, more⟩
  · simp [convert?]
  · simp only [convert?, Option.bind_some, Option.bind_eq_some_iff]
    constructor
    · rintro ⟨y, hy, ⟨⟩⟩
      exact ⟨x, rfl, hy⟩
    · rintro ⟨x, ⟨⟩, hy⟩
      exact ⟨y, hy, rfl⟩

theorem cons_ne_cons_of_ne {c d : Char} (h : c ≠ d) (rest more : List Char) : c :: rest ≠ d :: more :=
  fun heq => h (List.cons.inj heq).1

theorem suffix_cons_of_suffix {c : Char} {rest cs : List Char} (h : rest <:+ cs) :
    rest <:+ c :: cs ∧ rest.length < (c :: cs).length :=
  ⟨h.trans (List.suffix_cons c cs), Nat.lt_succ_of_le h.length_le⟩

theorem suffix_of_suffix_cons {c : Char} {rest cs : List Char}
    (h : rest <:+ c :: cs ∧ rest.length < (c :: cs).length) : rest <:+ cs := by
  rcases List.suffix_cons_iff.1 h.1 with rfl | hrest
  · exact absurd h.2 (Nat.lt_irrefl _)
  · exact hrest

/-! ## Closing texts -/

/-- **Closing text**: a bracket, and dollar signs. -/
def closing (n : Nat) : List Char :=
  ')' :: List.replicate n '$'

theorem replicate_ne_append_closing (n : Nat) (rest : List Char) : List.replicate n '$' ≠ rest ++ closing n := by
  intro heq
  have := congrArg List.length heq
  simp [closing] at this
  omega

/-- **Ends of a text** alone and with another behind it. Nothing may be left of either. -/
inductive Trails (t : List Char) : List Char → List Char → Prop where
  | nothing : Trails t [] []
  | other : Trails t [] t
  | cons (c : Char) (rest : List Char) : Trails t (c :: rest) (c :: (rest ++ t))

theorem trails_append (t rest : List Char) : Trails t rest (rest ++ t) := by
  cases rest with
  | nil => exact .other
  | cons c rest => exact .cons c rest

theorem Trails.cases {t rest rest' : List Char} (h : Trails t rest rest') :
    (rest = [] ∧ rest' = []) ∨ rest' = rest ++ t := by
  cases h with
  | nothing => exact .inl ⟨rfl, rfl⟩
  | other => exact .inr rfl
  | cons c rest => exact .inr rfl

/-- **Readings agree**, of a text alone and with another behind it: what is read of the text alone is read then too, and
what is read then without touching the other text is read of the text alone, as far as it is `seen`. -/
structure Agrees {α : Type} (t : List Char) (seen : α → List Char → Prop) (a b : Option (α × List Char)) : Prop where
  forth : ∀ x rest, a = some (x, rest) → ∃ rest', b = some (x, rest') ∧ Trails t rest rest'
  back : ∀ x rest, b = some (x, rest ++ t) → seen x rest → a = some (x, rest)

/-- Everything that is read. -/
def Always {α : Type} : α → List Char → Prop :=
  fun _ _ => True

namespace Agrees

variable {α β : Type} {t : List Char} {seen : α → List Char → Prop}

theorem of_none_of_forall {b : Option (α × List Char)} (h : ∀ x rest, b = some (x, rest ++ t) → ¬seen x rest) :
    Agrees t seen none b :=
  ⟨nofun, fun x rest hb hseen => absurd hseen (h x rest hb)⟩

theorem none : Agrees t seen none none :=
  of_none_of_forall nofun

/-- Where nothing is read of the text alone, and the other text has been touched. -/
theorem none_of_leaves {read : List Char → Option (α × List Char)} (hread : Leaves read) {rest' : List Char}
    (hlength : rest'.length < t.length) : Agrees t seen Option.none (read rest') := by
  refine of_none_of_forall fun x rest hb => ?_
  have := (hread _ _ _ hb).length_le
  rw [List.length_append] at this
  omega

/-- Where nothing is read of the text alone, and what is read behind it touches the other text. -/
theorem none_of_consumes {read : List Char → Option (α × List Char)} (hread : Consumes read) {rest' : List Char}
    (htrails : Trails t [] rest') : Agrees t seen Option.none (read rest') := by
  refine of_none_of_forall fun x rest hb => ?_
  have hlength := (hread _ _ _ hb).2
  cases htrails with
  | nothing => simp at hlength
  | other =>
    rw [List.length_append] at hlength
    omega

theorem some (ht : t ≠ []) {x : α} {rest rest' : List Char} (h : Trails t rest rest') :
    Agrees t seen (some (x, rest)) (some (x, rest')) := by
  refine ⟨fun y more heq => ?_, fun y more heq _ => ?_⟩
  · cases heq
    exact ⟨rest', rfl, h⟩
  · have hrest : rest' = more ++ t := (Prod.mk.inj (Option.some.inj heq)).2
    have hx : x = y := (Prod.mk.inj (Option.some.inj heq)).1
    subst hx
    cases h with
    | nothing => simp [ht] at hrest
    | other =>
      have : more = [] := by simpa using hrest
      rw [this]
    | cons c rest =>
      rw [← List.cons_append] at hrest
      rw [List.append_cancel_right hrest]

/-- What is there before a text is read. -/
theorem of_option (ht : t ≠ []) (o : Option α) {rest rest' : List Char} (h : Trails t rest rest') :
    Agrees t seen (o.map fun x => (x, rest)) (o.map fun x => (x, rest')) := by
  cases o with
  | none => exact none
  | some x => exact some ht h

theorem convert {next : β → List Char → Prop} {a b : Option (α × List Char)} (f : α → Option β)
    (h : Agrees t seen a b) (hseen : ∀ x y rest, f x = Option.some y → next y rest → seen x rest) :
    Agrees t next (convert? f a) (convert? f b) := by
  refine ⟨fun y rest heq => ?_, fun y rest heq hnext => ?_⟩
  · obtain ⟨x, ha, hx⟩ := convert?_eq_some_iff.1 heq
    obtain ⟨rest', hb, htrails⟩ := h.forth x rest ha
    exact ⟨rest', convert?_eq_some_iff.2 ⟨x, hb, hx⟩, htrails⟩
  · obtain ⟨x, hb, hx⟩ := convert?_eq_some_iff.1 heq
    exact convert?_eq_some_iff.2 ⟨x, h.back x rest hb (hseen x y rest hx hnext), hx⟩

theorem weaken {always : α → List Char → Prop} {a b : Option (α × List Char)} (h : Agrees t always a b)
    (hseen : ∀ x rest, seen x rest → always x rest) : Agrees t seen a b :=
  ⟨h.forth, fun x rest hb hs => h.back x rest hb (hseen x rest hs)⟩

/-- **One reading after another.** -/
theorem bind {next : β → List Char → Prop} {a b : Option (α × List Char)}
    {f g : α × List Char → Option (β × List Char)} (h : Agrees t seen a b)
    (hleaves : ∀ x, Leaves fun cs => g (x, cs))
    (hseen : ∀ x rest y more, g (x, rest ++ t) = Option.some (y, more ++ t) → next y more → seen x rest)
    (hnext : ∀ x rest rest', a = Option.some (x, rest) → b = Option.some (x, rest') → Trails t rest rest' →
      Agrees t next (f (x, rest)) (g (x, rest'))) : Agrees t next (a.bind f) (b.bind g) := by
  refine ⟨fun y more heq => ?_, fun y more heq hmore => ?_⟩
  · obtain ⟨⟨x, rest⟩, ha, hf⟩ := Option.bind_eq_some_iff.1 heq
    obtain ⟨rest', hb, htrails⟩ := h.forth x rest ha
    obtain ⟨more', hg, htrails'⟩ := (hnext x rest rest' ha hb htrails).forth y more hf
    exact ⟨more', by rw [hb, Option.bind_some, hg], htrails'⟩
  · obtain ⟨⟨x, rest'⟩, hb, hg⟩ := Option.bind_eq_some_iff.1 heq
    obtain ⟨rest, rfl⟩ : t <:+ rest' := (List.suffix_append more t).trans (hleaves x _ _ _ hg)
    have ha := h.back x rest hb (hseen x rest y more hg hmore)
    rw [ha, Option.bind_some]
    exact (hnext x rest _ ha hb (trails_append t rest)).back y more hg hmore

theorem map {next : β → List Char → Prop} {a b : Option (α × List Char)} (f : α → β) (h : Agrees t seen a b)
    (hseen : ∀ x rest, next (f x) rest → seen x rest) :
    Agrees t next (a.map fun (x, rest) => (f x, rest)) (b.map fun (x, rest) => (f x, rest)) := by
  refine ⟨fun y more heq => ?_, fun y more heq hmore => ?_⟩
  · obtain ⟨⟨x, rest⟩, ha, hx⟩ := Option.map_eq_some_iff.1 heq
    cases hx
    obtain ⟨rest', hb, htrails⟩ := h.forth x _ ha
    exact ⟨rest', by rw [hb]; rfl, htrails⟩
  · obtain ⟨⟨x, rest⟩, hb, hx⟩ := Option.map_eq_some_iff.1 heq
    cases hx
    rw [h.back x more hb (hseen x more hmore)]
    rfl

/-- A step that reads nothing. -/
theorem bind_left {γ : Type} {o : Option γ} {f g : γ → Option (α × List Char)}
    (h : ∀ c, o = Option.some c → Agrees t seen (f c) (g c)) : Agrees t seen (o.bind f) (o.bind g) := by
  cases o with
  | none => exact none
  | some c => exact h c rfl

end Agrees

/-! ## Blanks -/

theorem length_afterComment_le (cs : List Char) : (afterComment cs).length ≤ cs.length := by
  induction cs with
  | nil => exact Nat.le_refl 0
  | cons c rest ih =>
    rw [afterComment]
    split
    · exact Nat.le_succ _
    · exact Nat.le_succ_of_le ih

/-- The fuel of skipping makes no difference. -/
theorem skip_eq (flags : Flags) (m n : Nat) (cs : List Char) (hm : cs.length < m) (hn : cs.length < n) :
    skip flags m cs = skip flags n cs := by
  induction m generalizing n cs with
  | zero => omega
  | succ m ih =>
    cases n with
    | zero => omega
    | succ n =>
      cases cs with
      | nil => rfl
      | cons c rest =>
        have hcomment := length_afterComment_le rest
        rw [List.length_cons] at hm hn
        rw [skip, skip, ih n rest (by omega) (by omega), ih n (afterComment rest) (by omega) (by omega)]

theorem skipBlanks_cons (flags : Flags) (c : Char) (rest : List Char) :
    skipBlanks flags (c :: rest) =
      if !flags.verbose then c :: rest
      else if Text.isBlank c then skipBlanks flags rest
      else if c == '#' then skipBlanks flags (afterComment rest)
      else c :: rest := by
  have hcomment := length_afterComment_le rest
  unfold skipBlanks
  rw [List.length_cons, skip,
    skip_eq flags _ ((afterComment rest).length + 1) (afterComment rest) (by omega) (by omega)]

theorem suffix_afterComment (cs : List Char) : afterComment cs <:+ cs := by
  induction cs with
  | nil => exact List.suffix_rfl
  | cons c rest ih =>
    rw [afterComment]
    split
    · exact List.suffix_cons c rest
    · exact ih.trans (List.suffix_cons c rest)

theorem suffix_skipBlanks (flags : Flags) (cs : List Char) : skipBlanks flags cs <:+ cs := by
  induction hlength : cs.length using Nat.strong_induction_on generalizing cs with
  | _ length ih =>
    cases cs with
    | nil => exact List.suffix_rfl
    | cons c rest =>
      have hcomment := length_afterComment_le rest
      subst hlength
      rw [skipBlanks_cons]
      split_ifs
      · exact List.suffix_rfl
      · exact (ih _ (Nat.lt_succ_self _) rest rfl).trans (List.suffix_cons c rest)
      · exact ((ih _ (by simp; omega) _ rfl).trans (suffix_afterComment rest)).trans (List.suffix_cons c rest)
      · exact List.suffix_rfl

theorem closing_ne_nil (n : Nat) : closing n ≠ [] := nofun

theorem skipBlanks_closing (flags : Flags) (n : Nat) : skipBlanks flags (closing n) = closing n := by
  rw [closing, skipBlanks_cons]
  have hblank : Text.isBlank ')' = false := by decide
  simp [hblank]

theorem afterComment_append_of_not_mem {cs t : List Char} (ht : '\n' ∉ t) :
    Trails t (afterComment cs) (afterComment (cs ++ t)) := by
  induction cs with
  | nil =>
    have hnothing : ∀ cs : List Char, '\n' ∉ cs → afterComment cs = [] := by
      intro cs
      induction cs with
      | nil => exact fun _ => rfl
      | cons c rest ih =>
        intro h
        rw [afterComment, if_neg (by simp; rintro rfl; simp at h), ih (fun hmem => h (List.mem_cons_of_mem c hmem))]
    rw [List.nil_append, hnothing t ht]
    exact .nothing
  | cons c rest ih =>
    rw [List.cons_append, afterComment, afterComment]
    split
    · exact trails_append t rest
    · exact ih

/-- **Blanks skipped** before the closing text. A comment may go on behind it. -/
theorem trails_skipBlanks (flags : Flags) {n : Nat} {cs cs' : List Char} (h : Trails (closing n) cs cs') :
    Trails (closing n) (skipBlanks flags cs) (skipBlanks flags cs') := by
  induction hlength : cs.length using Nat.strong_induction_on generalizing cs cs' with
  | _ length ih =>
    cases h with
    | nothing => exact .nothing
    | other =>
      rw [skipBlanks_closing]
      exact .other
    | cons c rest =>
      have hcomment := length_afterComment_le rest
      have hnewline : '\n' ∉ closing n := by simp [closing, List.mem_replicate]
      subst hlength
      rw [skipBlanks_cons, skipBlanks_cons]
      split_ifs
      · exact .cons c rest
      · exact ih _ (Nat.lt_succ_self _) (trails_append _ rest) rfl
      · exact ih _ (by simp; omega) (afterComment_append_of_not_mem hnewline) rfl
      · exact .cons c rest

end FormWiring.Regex
