import FormWiring.Proofs.ReadingItems
import Mathlib.Data.List.TakeWhile

/-!
# Reading sets before a closing bracket

A set in brackets is read from a text as it is read with a closing bracket behind it. An item or a range at the very
end of the text is the exception, and no set ends there: its own bracket has to follow. Sets and their items read each
other, so what they leave and that they agree is shown of both at once, by induction on the fuel.

Main statements: `leaves_readSet?`, `agrees_readSet?`.
-/

set_option autoImplicit false

namespace FormWiring.Regex

variable {n : Nat} {cs cs' : List Char}

/-! ## Sets in brackets -/

theorem dropWhile_append_closing {p : Char → Bool} (hp : ∀ c ∈ closing n, p c = true) (cs : List Char) :
    (cs ++ closing n).dropWhile p = if (cs.dropWhile p).isEmpty then [] else cs.dropWhile p ++ closing n := by
  rw [List.dropWhile_append]
  split_ifs
  · exact List.dropWhile_eq_nil_iff.2 hp
  · rfl

theorem takeWhile_append_of_dropWhile {p : Char → Bool} {cs t : List Char} (h : cs.dropWhile p ≠ []) :
    (cs ++ t).takeWhile p = cs.takeWhile p := by
  rw [List.takeWhile_append, if_neg]
  intro hlength
  apply h
  have := congrArg List.length (List.takeWhile_append_dropWhile (p := p) (l := cs))
  rw [List.length_append] at this
  exact List.length_eq_zero_iff.1 (by omega)

/-- **After the marks** that close a name. -/
def afterMarks? : List Char → Option (List Char)
  | ':' :: ']' :: rest => some rest
  | _ => none

/-- **Set with a name** up to its closing marks. -/
def namedClass? (negated : Bool) (cs : List Char) : Option (CharSet × List Char) :=
  (afterMarks? (cs.dropWhile (· != ':'))).bind fun rest =>
    (plainClass? (String.ofList (cs.takeWhile (· != ':')))).map fun s =>
      (if negated then .complement s else s, rest)

theorem readPlainClass?_colon (cs : List Char) :
    readPlainClass? (':' :: cs) = if cs.head? = some '^' then namedClass? true cs.tail else namedClass? false cs := by
  cases cs with
  | nil => rfl
  | cons c rest =>
    by_cases hc : c = '^'
    · subst hc
      simp only [readPlainClass?, namedClass?, afterMarks?, List.head?_cons, if_true, List.tail_cons]
      split <;> simp_all
    · simp [readPlainClass?, namedClass?, afterMarks?, hc]
      split <;> simp_all

theorem afterMarks?_append (n : Nat) {cs : List Char} (hcs : cs ≠ []) :
    afterMarks? (cs ++ closing n) = (afterMarks? cs).map (· ++ closing n) := by
  match cs with
  | [c] =>
    unfold afterMarks?
    split <;> simp_all [closing]
  | c :: d :: rest =>
    unfold afterMarks?
    simp only [List.cons_append]
    split <;> simp_all

theorem namedClass?_append (n : Nat) (negated : Bool) (cs : List Char) :
    namedClass? negated (cs ++ closing n) = (namedClass? negated cs).map (Prod.map id (· ++ closing n)) := by
  have hp : ∀ c ∈ closing n, (c != ':') = true := by simp [closing, List.mem_replicate]
  simp only [namedClass?, dropWhile_append_closing hp]
  cases hdrop : cs.dropWhile (· != ':') with
  | nil => rfl
  | cons c rest =>
    have hne : c :: rest ≠ [] := List.cons_ne_nil c rest
    rw [takeWhile_append_of_dropWhile (hdrop ▸ hne), List.isEmpty_cons, if_neg Bool.false_ne_true,
      afterMarks?_append n hne]
    cases afterMarks? (c :: rest) with
    | none => rfl
    | some more => cases plainClass? (String.ofList (cs.takeWhile (· != ':'))) <;> rfl

/-- **Named sets** are read before the closing text as without it. -/
theorem readPlainClass?_append (n : Nat) (cs : List Char) :
    readPlainClass? (cs ++ closing n) = (readPlainClass? cs).map (Prod.map id (· ++ closing n)) := by
  match cs with
  | [] => rfl
  | c :: rest =>
    by_cases hc : c = ':'
    · subst hc
      rw [List.cons_append, readPlainClass?_colon, readPlainClass?_colon]
      by_cases hhead : rest.head? = some '^'
      · obtain ⟨more, rfl⟩ := List.head?_eq_some_iff.1 hhead
        exact namedClass?_append n true more
      · have hhead' : (rest ++ closing n).head? ≠ some '^' := by
          cases rest with
          | nil => simp [closing]
          | cons d rest => exact hhead
        rw [if_neg hhead, if_neg hhead']
        exact namedClass?_append n false rest
    · have hne : ∀ rest, readPlainClass? (c :: rest) = none := by
        intro rest
        unfold readPlainClass?
        split <;> simp_all
      rw [List.cons_append, hne, hne]
      rfl

/-- **Operations on sets** are read before the closing text as without it. -/
theorem readOperation?_append (n : Nat) (c : Char) (rest : List Char) :
    readOperation? (c :: (rest ++ closing n)) =
      (readOperation? (c :: rest)).map (Prod.map id (· ++ closing n)) := by
  cases rest with
  | nil =>
    have hone : readOperation? [c] = none := by
      unfold readOperation?
      split <;> simp_all
    have hclosing : readOperation? (c :: closing n) = none := by
      unfold readOperation?
      split <;> simp_all [closing]
    rw [hone, List.nil_append, hclosing]
    rfl
  | cons d rest =>
    unfold readOperation?
    simp only [List.cons_append]
    split <;> simp_all

theorem consumes_readItem? (flags : Flags) : Consumes (readItem? flags) := by
  intro cs x rest h
  unfold readItem? at h
  split at h
  · obtain ⟨hrest, hlength⟩ := consumes_readEscape? flags _ _ _ h
    exact suffix_cons_of_suffix hrest
  · cases h
    exact suffix_cons_of_suffix List.suffix_rfl
  · cases h

theorem readItem?_of_ne (flags : Flags) {c : Char} (hc : c ≠ '\\') (rest : List Char) :
    readItem? flags (c :: rest) = some (.literal c, rest) := by
  unfold readItem?
  split <;> simp_all

/-- **Items agree**, unless a word boundary leaves a dangling brace. -/
theorem agrees_readItem? (flags : Flags) (h : Trails (closing n) cs cs') :
    Agrees (closing n) (fun p rest => ¬DanglingAnchor flags p rest) (readItem? flags cs) (readItem? flags cs') := by
  cases h with
  | nothing => exact .none
  | other => exact .none_of_consumes (consumes_readItem? flags) .other
  | cons c rest =>
    by_cases hc : c = '\\'
    · subst hc
      exact agrees_readEscape? flags (trails_append _ rest)
    · rw [readItem?_of_ne flags hc, readItem?_of_ne flags hc]
      exact .some (closing_ne_nil n) (trails_append _ rest)

/-! ## Ranges -/

/-- **Characters that may stand in a set** under the flags. -/
def inMode (flags : Flags) (c : Char) : Bool :=
  flags.unicode || c.toNat < 128

/-- **Set of one item.** -/
def setOf? (flags : Flags) : Primitive → Option CharSet
  | .literal c => if inMode flags c then some (.one c) else none
  | .set s => some s
  | .anchor _ => none

/-- **Set of a range** between two items. -/
def spanOf? (flags : Flags) : Primitive → Primitive → Option CharSet
  | .literal a, .literal b => if a ≤ b && inMode flags a && inMode flags b then some (.range a.toNat b.toNat) else none
  | _, _ => none

/-- **Rest of an item or range**, after its first item. -/
def rangeFrom? (flags : Flags) (first : Primitive) (cs : List Char) : Option (CharSet × List Char) :=
  match cs with
  | [] => none
  | c :: rest =>
    if c = '-' then
      match skipBlanks flags rest with
      | [] => none
      | d :: more =>
        if d = ']' ∨ d = '-' then (setOf? flags first).map fun s => (s, cs)
        else convert? (spanOf? flags first) (readItem? flags (d :: more))
    else (setOf? flags first).map fun s => (s, cs)

theorem readRange?_eq (flags : Flags) (cs : List Char) :
    readRange? flags cs =
      (readItem? flags cs).bind fun (first, rest) => rangeFrom? flags first (skipBlanks flags rest) := by
  have hsingle (first : Primitive) (rest : List Char) :
      (match first with
        | .literal c => if flags.unicode || c.toNat < 128 then some (CharSet.one c, rest) else none
        | .set s => some (s, rest)
        | .anchor _ => none) = (setOf? flags first).map fun s => (s, rest) := by
    cases first with
    | literal c =>
      rw [setOf?, apply_ite (Option.map _)]
      rfl
    | set s => rfl
    | anchor a => rfl
  have hspan (first second : Primitive) (rest : List Char) :
      (match first, second with
        | .literal a, .literal b =>
          if a ≤ b && (flags.unicode || a.toNat < 128) && (flags.unicode || b.toNat < 128) then
            some (CharSet.range a.toNat b.toNat, rest)
          else none
        | _, _ => none) = (spanOf? flags first second).bind fun s => some (s, rest) := by
    cases first with
    | literal a =>
      cases second with
      | literal b =>
        dsimp only [spanOf?]
        rw [← inMode, ← inMode]
        split_ifs <;> rfl
      | set s => rfl
      | anchor b => rfl
    | set s => rfl
    | anchor a => rfl
  unfold readRange?
  rcases readItem? flags cs with _ | ⟨first, rest⟩
  · rfl
  · simp only [Option.bind_some, bind]
    generalize skipBlanks flags rest = ds
    cases ds with
    | nil => rfl
    | cons c rest =>
      by_cases hc : c = '-'
      · subst hc
        simp only [List.isEmpty_cons, List.head?_cons, List.drop_succ_cons, List.drop_zero, rangeFrom?, if_true]
        cases skipBlanks flags rest with
        | nil => rfl
        | cons d more =>
          by_cases hd : d = ']' ∨ d = '-'
          · rcases hd with rfl | rfl
            · exact hsingle first ('-' :: rest)
            · exact hsingle first ('-' :: rest)
          · have hcond :
                (some '-' == some '-' && (d :: more).head? != some ']' && (d :: more).head? != some '-') = true := by
              obtain ⟨hbracket, hdash⟩ := not_or.1 hd
              simp [hbracket, hdash]
            rw [if_neg Bool.false_ne_true, if_pos hcond]
            simp only [if_neg hd, convert?]
            congr 1
            funext ⟨second, left⟩
            exact hspan first second left
      · have hhead : ((c :: rest).head? == some '-') = false := by simp [hc]
        simp only [hhead, Bool.false_and, Bool.false_eq_true, if_false, List.isEmpty_cons, rangeFrom?, if_neg hc]
        exact hsingle first (c :: rest)

theorem leaves_rangeFrom? (flags : Flags) (first : Primitive) : Leaves (rangeFrom? flags first) := by
  intro cs s left h
  cases cs with
  | nil => cases h
  | cons c rest =>
    simp only [rangeFrom?] at h
    split_ifs at h
    · split at h
      · cases h
      · rename_i d more hskip
        have hmore := suffix_skipBlanks flags rest
        rw [hskip] at hmore
        split_ifs at h
        · obtain ⟨s, -, ⟨⟩⟩ := Option.map_eq_some_iff.1 h
          exact List.suffix_rfl
        · obtain ⟨second, hsecond, -⟩ := convert?_eq_some_iff.1 h
          exact ((consumes_readItem? flags _ _ _ hsecond).1.trans hmore).trans (List.suffix_cons c rest)
    · obtain ⟨s, -, ⟨⟩⟩ := Option.map_eq_some_iff.1 h
      exact List.suffix_rfl

theorem consumes_readRange? (flags : Flags) : Consumes (readRange? flags) := by
  intro cs s left h
  rw [readRange?_eq] at h
  obtain ⟨⟨first, rest⟩, hfirst, h⟩ := Option.bind_eq_some_iff.1 h
  obtain ⟨hrest, hlength⟩ := consumes_readItem? flags _ _ _ hfirst
  have hleft := (leaves_rangeFrom? flags first _ _ _ h).trans (suffix_skipBlanks flags rest)
  have hlength' := hleft.length_le
  exact ⟨hleft.trans hrest, by omega⟩

/-- No range starts or ends with an anchor. -/
theorem rangeFrom?_anchor (flags : Flags) (a : Anchor) (cs : List Char) : rangeFrom? flags (.anchor a) cs = none := by
  unfold rangeFrom?
  split
  · rfl
  · split_ifs
    · split
      · rfl
      · split_ifs
        · rfl
        · rw [convert?, Option.bind_eq_none_iff]
          exact fun _ _ => rfl
    · rfl

theorem spanOf?_anchor (flags : Flags) (first : Primitive) (a : Anchor) : spanOf? flags first (.anchor a) = none := by
  cases first <;> rfl

theorem agrees_rangeFrom? (flags : Flags) (first : Primitive) (h : Trails (closing n) cs cs') :
    Agrees (closing n) (fun _ rest => rest ≠ []) (rangeFrom? flags first cs) (rangeFrom? flags first cs') := by
  cases h with
  | nothing => exact .none
  | other =>
    refine .of_none_of_forall fun s rest heq hrest => ?_
    have hclosing : rangeFrom? flags first (closing n) = (setOf? flags first).map fun s => (s, closing n) := rfl
    rw [hclosing] at heq
    obtain ⟨s', -, heq⟩ := Option.map_eq_some_iff.1 heq
    have : closing n = rest ++ closing n := (Prod.mk.inj heq).2
    exact hrest (by simpa using this)
  | cons c rest =>
    have hsingle : Agrees (closing n) (fun (_ : CharSet) rest => rest ≠ [])
        ((setOf? flags first).map fun s => (s, c :: rest))
        ((setOf? flags first).map fun s => (s, c :: (rest ++ closing n))) :=
      .of_option (closing_ne_nil n) _ (.cons c rest)
    simp only [rangeFrom?]
    split_ifs
    · have hskip := trails_skipBlanks flags (trails_append (closing n) rest)
      generalize skipBlanks flags rest = ds at hskip
      generalize skipBlanks flags (rest ++ closing n) = ds' at hskip
      cases hskip with
      | nothing => exact .none
      | other =>
        refine .of_none_of_forall fun s left heq _ => ?_
        have hspan : convert? (spanOf? flags first) (readItem? flags (closing n)) = some (s, left ++ closing n) := heq
        obtain ⟨second, hsecond, -⟩ := convert?_eq_some_iff.1 hspan
        have hlength := (consumes_readItem? flags _ _ _ hsecond).2
        rw [List.length_append] at hlength
        omega
      | cons d more =>
        dsimp only
        split_ifs
        · exact hsingle
        · refine (agrees_readItem? flags (.cons d more)).convert _ ?_
          rintro second s rest h - ⟨⟨a, rfl⟩, -⟩
          rw [spanOf?_anchor] at h
          cases h
    · exact hsingle

/-- **Items and ranges agree**, unless they end at the end of the text. -/
theorem agrees_readRange? (flags : Flags) (h : Trails (closing n) cs cs') :
    Agrees (closing n) (fun _ rest => rest ≠ []) (readRange? flags cs) (readRange? flags cs') := by
  rw [readRange?_eq, readRange?_eq]
  refine (agrees_readItem? flags h).bind ?_ ?_ ?_
  · intro first cs s rest h
    exact (leaves_rangeFrom? flags first _ _ _ h).trans (suffix_skipBlanks flags cs)
  · rintro first rest s left h - ⟨⟨a, rfl⟩, -⟩
    simp only [rangeFrom?_anchor] at h
    cases h
  · intro first rest rest' _ _ htrails
    exact agrees_rangeFrom? flags first (trails_skipBlanks flags htrails)

/-! ## Sets -/

theorem suffix_leadingDashes (flags : Flags) (fuel : Nat) (s : CharSet) (cs : List Char) :
    (leadingDashes flags fuel s cs).2 <:+ cs := by
  induction fuel generalizing s cs with
  | zero => exact List.suffix_rfl
  | succ fuel ih =>
    unfold leadingDashes
    split
    · exact ((ih _ _).trans (suffix_skipBlanks flags _)).trans (List.suffix_cons _ _)
    · exact List.suffix_rfl

theorem leadingDashes_of_ne (flags : Flags) (fuel : Nat) (s : CharSet) {c : Char} (hc : c ≠ '-') (rest : List Char) :
    leadingDashes flags fuel s (c :: rest) = (s, c :: rest) := by
  cases fuel with
  | zero => rfl
  | succ fuel =>
    unfold leadingDashes
    split <;> simp_all

theorem leadingDashes_nil (flags : Flags) (fuel : Nat) (s : CharSet) : leadingDashes flags fuel s [] = (s, []) := by
  cases fuel <;> rfl

theorem trails_leadingDashes (flags : Flags) {fuel fuel' : Nat} (s : CharSet) (h : Trails (closing n) cs cs')
    (hfuel : cs.length ≤ fuel) (hfuel' : cs'.length ≤ fuel') :
    (leadingDashes flags fuel s cs).1 = (leadingDashes flags fuel' s cs').1 ∧
      Trails (closing n) (leadingDashes flags fuel s cs).2 (leadingDashes flags fuel' s cs').2 := by
  induction fuel generalizing fuel' s cs cs' with
  | zero =>
    obtain rfl := List.length_eq_zero_iff.1 (Nat.le_zero.1 hfuel)
    cases h with
    | nothing =>
      rw [leadingDashes_nil, leadingDashes_nil]
      exact ⟨rfl, .nothing⟩
    | other =>
      rw [closing, leadingDashes_of_ne flags _ s (by decide)]
      exact ⟨rfl, .other⟩
  | succ fuel ih =>
    cases h with
    | nothing =>
      rw [leadingDashes_nil, leadingDashes_nil]
      exact ⟨rfl, .nothing⟩
    | other =>
      rw [closing, leadingDashes_of_ne flags _ s (by decide)]
      exact ⟨rfl, .other⟩
    | cons c rest =>
      by_cases hc : c = '-'
      · subst hc
        cases fuel' with
        | zero => simp at hfuel'
        | succ fuel' =>
          have hlength := (suffix_skipBlanks flags rest).length_le
          have hlength' := (suffix_skipBlanks flags (rest ++ closing n)).length_le
          simp only [List.length_cons] at hfuel hfuel'
          exact ih _ (trails_skipBlanks flags (trails_append _ rest)) (by omega) (by omega)
      · rw [leadingDashes_of_ne flags _ s hc, leadingDashes_of_ne flags _ s hc]
        exact ⟨rfl, .cons c rest⟩

/-- **Start of a set**: a bracket or dashes that stand for themselves. -/
def setStart (flags : Flags) (cs : List Char) : CharSet × List Char :=
  match cs with
  | ']' :: more => (CharSet.one ']', skipBlanks flags more)
  | _ => leadingDashes flags cs.length .empty cs

/-- **Mark of a negated set**, and what follows it. -/
def setMark (flags : Flags) (cs : List Char) : Bool × List Char :=
  let cs := skipBlanks flags cs
  let negated := cs.head? == some '^'
  (negated, if negated then skipBlanks flags (cs.drop 1) else cs)

theorem readItems?_nil (flags : Flags) (fuel : Nat) (left : Option (SetOperation × CharSet)) (items : CharSet) :
    readItems? flags fuel left items [] = none := by
  cases fuel <;> rfl

theorem readSet?_eq (flags : Flags) (fuel : Nat) (cs : List Char) :
    readSet? flags (fuel + 1) cs =
      convert? (fun s => allowed? flags (if (setMark flags cs).1 then .complement (folded flags s) else folded flags s))
        (readItems? flags fuel none (setStart flags (setMark flags cs).2).1
          (setStart flags (setMark flags cs).2).2) := by
  rw [readSet?]
  by_cases hempty : (setStart flags (setMark flags cs).2).2 = []
  · rw [hempty, readItems?_nil]
    exact if_pos (List.isEmpty_iff.2 hempty)
  · exact if_neg (mt List.isEmpty_iff.1 hempty)

/-- **Set within a set**: one with a name or one in brackets. -/
def readNested? (flags : Flags) (fuel : Nat) (cs : List Char) : Option (CharSet × List Char) :=
  (readPlainClass? cs).or (readSet? flags fuel cs)

section Items

variable {flags : Flags} {c : Char} {rest : List Char} (fuel : Nat) (left : Option (SetOperation × CharSet))
  (items : CharSet)

theorem readItems?_succ (cs : List Char) :
    readItems? flags (fuel + 1) left items cs =
      match skipBlanks flags cs with
      | [] => none
      | c :: rest =>
        if c = ']' then some (applyOperation flags left items, rest)
        else if c = '[' then
          (readNested? flags fuel rest).bind fun (s, rest) => readItems? flags fuel left (.union items s) rest
        else
          match readOperation? (c :: rest) with
          | some (operation, rest) =>
            readItems? flags fuel (some (operation, applyOperation flags left items)) .empty rest
          | none =>
            (readRange? flags (c :: rest)).bind fun (s, rest) =>
              readItems? flags fuel left (.union items s) rest := by
  rw [readItems?]
  generalize skipBlanks flags cs = ds
  match ds with
  | [] => rfl
  | c :: rest =>
    by_cases hclose : c = ']'
    · subst hclose
      rfl
    by_cases hopen : c = '['
    · subst hopen
      simp only [if_neg hclose, if_true, readNested?]
      cases readPlainClass? rest <;> rfl
    · simp only [if_neg hclose, if_neg hopen]
      split
      · simp_all
      · simp_all
      · simp_all
      · rfl

theorem readItems?_congr {ds : List Char} (h : skipBlanks flags cs = skipBlanks flags ds) :
    readItems? flags (fuel + 1) left items cs = readItems? flags (fuel + 1) left items ds := by
  rw [readItems?_succ, readItems?_succ, h]

theorem readItems?_of_nil (h : skipBlanks flags cs = []) : readItems? flags (fuel + 1) left items cs = none := by
  rw [readItems?_succ, h]

theorem readItems?_of_close (h : skipBlanks flags cs = ']' :: rest) :
    readItems? flags (fuel + 1) left items cs = some (applyOperation flags left items, rest) := by
  rw [readItems?_succ, h]
  rfl

theorem readItems?_of_open (h : skipBlanks flags cs = '[' :: rest) :
    readItems? flags (fuel + 1) left items cs =
      (readNested? flags fuel rest).bind fun (s, rest) => readItems? flags fuel left (.union items s) rest := by
  rw [readItems?_succ, h]
  rfl

theorem readItems?_of_ne (h : skipBlanks flags cs = c :: rest) (hclose : c ≠ ']') (hopen : c ≠ '[') :
    readItems? flags (fuel + 1) left items cs =
      match readOperation? (c :: rest) with
      | some (operation, rest) =>
        readItems? flags fuel (some (operation, applyOperation flags left items)) .empty rest
      | none =>
        (readRange? flags (c :: rest)).bind fun (s, rest) => readItems? flags fuel left (.union items s) rest := by
  rw [readItems?_succ, h]
  dsimp only
  rw [if_neg hclose, if_neg hopen]

end Items

theorem suffix_setMark (flags : Flags) (cs : List Char) : (setMark flags cs).2 <:+ cs := by
  have hskip := suffix_skipBlanks flags cs
  unfold setMark
  dsimp only
  split_ifs
  · exact ((suffix_skipBlanks flags _).trans (List.drop_suffix 1 _)).trans hskip
  · exact hskip

theorem suffix_setStart (flags : Flags) (cs : List Char) : (setStart flags cs).2 <:+ cs := by
  unfold setStart
  split
  · exact (suffix_skipBlanks flags _).trans (List.suffix_cons _ _)
  · exact suffix_leadingDashes flags _ _ cs

theorem trails_setMark (flags : Flags) (h : Trails (closing n) cs cs') :
    (setMark flags cs).1 = (setMark flags cs').1 ∧ Trails (closing n) (setMark flags cs).2 (setMark flags cs').2 := by
  have hskip := trails_skipBlanks flags h
  unfold setMark
  generalize skipBlanks flags cs = ds at hskip
  generalize skipBlanks flags cs' = ds' at hskip
  cases hskip with
  | nothing => exact ⟨rfl, .nothing⟩
  | other => exact ⟨rfl, .other⟩
  | cons c rest =>
    refine ⟨rfl, ?_⟩
    by_cases hc : c = '^'
    · subst hc
      exact trails_skipBlanks flags (trails_append _ rest)
    · have hhead : (some c == some '^') = false := by simp [hc]
      simp only [List.head?_cons, hhead, Bool.false_eq_true, if_false]
      exact .cons c rest

theorem setStart_of_ne (flags : Flags) (h : ∀ rest, cs ≠ ']' :: rest) :
    setStart flags cs = leadingDashes flags cs.length .empty cs := by
  unfold setStart
  split
  · exact absurd rfl (h _)
  · rfl

theorem trails_setStart (flags : Flags) (h : Trails (closing n) cs cs') :
    (setStart flags cs).1 = (setStart flags cs').1 ∧
      Trails (closing n) (setStart flags cs).2 (setStart flags cs').2 := by
  by_cases hbracket : ∃ rest, cs = ']' :: rest
  · obtain ⟨rest, rfl⟩ := hbracket
    cases h with
    | cons _ rest => exact ⟨rfl, trails_skipBlanks flags (trails_append _ rest)⟩
  · have hcs : ∀ rest, cs ≠ ']' :: rest := fun rest heq => hbracket ⟨rest, heq⟩
    have hcs' : ∀ rest, cs' ≠ ']' :: rest := by
      rintro rest rfl
      cases h with
      | cons _ rest => exact hcs rest rfl
    rw [setStart_of_ne flags hcs, setStart_of_ne flags hcs']
    exact trails_leadingDashes flags _ h le_rfl le_rfl

/-! ### What sets leave -/

theorem leaves_readPlainClass? : Leaves readPlainClass? := by
  have hnamed (negated : Bool) : Leaves (namedClass? negated) := by
    intro cs s rest h
    obtain ⟨more, hmore, h⟩ := Option.bind_eq_some_iff.1 h
    obtain ⟨s, -, ⟨⟩⟩ := Option.map_eq_some_iff.1 h
    have hdrop : cs.dropWhile (· != ':') = ':' :: ']' :: rest := by
      unfold afterMarks? at hmore
      split at hmore <;> simp_all
    have hsuffix := List.dropWhile_suffix (l := cs) (· != ':')
    rw [hdrop] at hsuffix
    exact ((List.suffix_cons _ rest).trans (List.suffix_cons _ _)).trans hsuffix
  intro cs s rest h
  match cs with
  | [] => cases h
  | c :: more =>
    by_cases hc : c = ':'
    · subst hc
      rw [readPlainClass?_colon] at h
      split_ifs at h
      · exact ((hnamed true _ _ _ h).trans (List.tail_suffix more)).trans (List.suffix_cons _ more)
      · exact (hnamed false _ _ _ h).trans (List.suffix_cons _ more)
    · unfold readPlainClass? at h
      split at h <;> simp_all

theorem consumes_readOperation? : Consumes readOperation? := by
  intro cs operation rest h
  unfold readOperation? at h
  split at h
  case h_4 => cases h
  all_goals
    cases h
    exact suffix_cons_of_suffix (List.suffix_cons _ _)

theorem leaves_readNested? {flags : Flags} {fuel : Nat} (hset : Leaves (readSet? flags fuel)) :
    Leaves (readNested? flags fuel) := by
  intro cs s rest h
  rcases Option.or_eq_some_iff.1 h with hplain | ⟨-, hread⟩
  · exact leaves_readPlainClass? _ _ _ hplain
  · exact hset _ _ _ hread

theorem consumes_readSet?_and_readItems? (flags : Flags) (fuel : Nat) :
    Leaves (readSet? flags fuel) ∧ ∀ left items, Consumes (readItems? flags fuel left items) := by
  induction fuel with
  | zero => exact ⟨nofun, fun _ _ => nofun⟩
  | succ fuel ih =>
    obtain ⟨hset, hitems⟩ := ih
    refine ⟨fun cs s rest h => ?_, fun left items cs s rest h => ?_⟩
    · rw [readSet?_eq] at h
      obtain ⟨s, hread, -⟩ := convert?_eq_some_iff.1 h
      exact ((hitems _ _ _ _ _ hread).1.trans (suffix_setStart flags _)).trans (suffix_setMark flags cs)
    · cases hskip : skipBlanks flags cs with
      | nil =>
        rw [readItems?_of_nil _ _ _ hskip] at h
        cases h
      | cons c more =>
        obtain ⟨hmore, hlength⟩ := suffix_of_skipBlanks_eq_cons hskip
        have hthen {left items more'} (hmore' : more' <:+ more)
            (hread : readItems? flags fuel left items more' = some (s, rest)) :
            rest <:+ cs ∧ rest.length < cs.length := by
          obtain ⟨hrest, hlength'⟩ := hitems _ _ _ _ _ hread
          have := hmore'.length_le
          exact ⟨(hrest.trans hmore').trans hmore, by omega⟩
        by_cases hclose : c = ']'
        · subst hclose
          rw [readItems?_of_close _ _ _ hskip] at h
          cases h
          exact ⟨hmore, hlength⟩
        by_cases hopen : c = '['
        · subst hopen
          rw [readItems?_of_open _ _ _ hskip] at h
          obtain ⟨⟨s', more'⟩, hnested, h⟩ := Option.bind_eq_some_iff.1 h
          exact hthen (leaves_readNested? hset _ _ _ hnested) h
        rw [readItems?_of_ne _ _ _ hskip hclose hopen] at h
        split at h
        · rename_i operation more' hoperation
          exact hthen (suffix_of_suffix_cons (consumes_readOperation? _ _ _ hoperation)) h
        · obtain ⟨⟨s', more'⟩, hrange, h⟩ := Option.bind_eq_some_iff.1 h
          exact hthen (suffix_of_suffix_cons (consumes_readRange? flags _ _ _ hrange)) h

theorem leaves_readSet? (flags : Flags) (fuel : Nat) : Leaves (readSet? flags fuel) :=
  (consumes_readSet?_and_readItems? flags fuel).1

theorem consumes_readItems? (flags : Flags) (fuel : Nat) (left : Option (SetOperation × CharSet)) (items : CharSet) :
    Consumes (readItems? flags fuel left items) :=
  (consumes_readSet?_and_readItems? flags fuel).2 left items

/-! ### Agreement -/

theorem agrees_readNested? (flags : Flags) {fuel fuel' : Nat} (rest : List Char)
    (hset : Agrees (closing n) Always (readSet? flags fuel rest) (readSet? flags fuel' (rest ++ closing n))) :
    Agrees (closing n) Always (readNested? flags fuel rest) (readNested? flags fuel' (rest ++ closing n)) := by
  unfold readNested?
  rw [readPlainClass?_append]
  cases readPlainClass? rest with
  | none => exact hset
  | some found => exact .some (closing_ne_nil n) (trails_append _ found.2)

/-- **Sets agree** at two fuels, if these are enough. -/
def SetsAgree (flags : Flags) (n fuel fuel' : Nat) : Prop :=
  ∀ {cs cs'}, Trails (closing n) cs cs' → 2 * cs.length + 2 ≤ fuel → 2 * cs'.length + 2 ≤ fuel' →
    Agrees (closing n) Always (readSet? flags fuel cs) (readSet? flags fuel' cs')

/-- **Items of sets agree** at two fuels, if these are enough. -/
def ItemsAgree (flags : Flags) (n fuel fuel' : Nat) : Prop :=
  ∀ {left items cs cs'}, Trails (closing n) cs cs' → 2 * cs.length + 1 ≤ fuel → 2 * cs'.length + 1 ≤ fuel' →
    Agrees (closing n) Always (readItems? flags fuel left items cs) (readItems? flags fuel' left items cs')

variable {flags : Flags} {fuel fuel' : Nat}

theorem setsAgree_succ (hitems : ItemsAgree flags n fuel fuel') : SetsAgree flags n (fuel + 1) (fuel' + 1) := by
  intro cs cs' h hfuel hfuel'
  obtain ⟨hmark, htrails⟩ := trails_setMark flags h
  obtain ⟨hstart, htrails⟩ := trails_setStart flags htrails
  have hlength := ((suffix_setStart flags (setMark flags cs).2).trans (suffix_setMark flags cs)).length_le
  have hlength' := ((suffix_setStart flags (setMark flags cs').2).trans (suffix_setMark flags cs')).length_le
  rw [readSet?_eq, readSet?_eq, ← hmark, ← hstart]
  exact (hitems htrails (by omega) (by omega)).convert _ fun _ _ _ _ _ => trivial

theorem itemsAgree_succ (hset : SetsAgree flags n fuel fuel') (hitems : ItemsAgree flags n fuel fuel') :
    ItemsAgree flags n (fuel + 1) (fuel' + 1) := by
  intro left items cs cs' h hfuel hfuel'
  have hskip := trails_skipBlanks flags h
  have hlength := (suffix_skipBlanks flags cs).length_le
  have hlength' := (suffix_skipBlanks flags cs').length_le
  generalize hds : skipBlanks flags cs = ds at hskip hlength
  generalize hds' : skipBlanks flags cs' = ds' at hskip hlength'
  cases hskip with
  | nothing =>
    rw [readItems?_of_nil _ _ _ hds, readItems?_of_nil _ _ _ hds']
    exact .none
  | other =>
    -- without its bracket there is no set; with the closing text behind it, what is read is taken from that
    rw [readItems?_of_nil _ _ _ hds, readItems?_congr _ _ _ (hds'.trans (skipBlanks_closing flags n).symm)]
    exact .none_of_consumes (consumes_readItems? flags _ left items) .other
  | cons c rest =>
    rw [List.length_cons] at hlength hlength'
    have hthen {left items more more'} (htrails : Trails (closing n) more more')
        (hmore : more.length ≤ rest.length) (hmore' : more'.length ≤ (rest ++ closing n).length) :
        Agrees (closing n) Always (readItems? flags fuel left items more) (readItems? flags fuel' left items more') :=
      hitems htrails (by omega) (by omega)
    by_cases hclose : c = ']'
    · subst hclose
      rw [readItems?_of_close _ _ _ hds, readItems?_of_close _ _ _ hds']
      exact .some (closing_ne_nil n) (trails_append _ rest)
    by_cases hopen : c = '['
    · subst hopen
      have hnested := hset (trails_append _ rest) (by omega) (by omega)
      rw [readItems?_of_open _ _ _ hds, readItems?_of_open _ _ _ hds']
      refine (agrees_readNested? flags rest hnested).bind (fun s => (consumes_readItems? flags _ _ _).leaves)
        (fun _ _ _ _ _ _ => trivial) fun s more more' hread hread' htrails => ?_
      have hmore := (leaves_readNested? (leaves_readSet? flags fuel) _ _ _ hread).length_le
      have hmore' := (leaves_readNested? (leaves_readSet? flags fuel') _ _ _ hread').length_le
      exact hthen htrails hmore hmore'
    rw [readItems?_of_ne _ _ _ hds hclose hopen, readItems?_of_ne _ _ _ hds' hclose hopen, readOperation?_append]
    cases hoperation : readOperation? (c :: rest) with
    | some found =>
      have hfound := (consumes_readOperation? _ _ _ hoperation).2
      rw [List.length_cons] at hfound
      exact hthen (trails_append _ found.2) (by omega) (by simp; omega)
    | none =>
      refine (agrees_readRange? flags (.cons c rest)).bind (fun s => (consumes_readItems? flags _ _ _).leaves)
        ?_ fun s more more' hread hread' htrails => ?_
      · -- a range at the very end leaves the closing text to the items, and they take some of it
        rintro s _ s' more hread - rfl
        have := (consumes_readItems? flags _ _ _ _ _ _ hread).2
        rw [List.length_append, List.nil_append] at this
        omega
      · have hmore := (consumes_readRange? flags _ _ _ hread).2
        have hmore' := (consumes_readRange? flags _ _ _ hread').2
        rw [List.length_cons] at hmore hmore'
        exact hthen htrails (by omega) (by omega)

theorem setsAgree_and_itemsAgree (flags : Flags) (n fuel fuel' : Nat) :
    SetsAgree flags n fuel fuel' ∧ ItemsAgree flags n fuel fuel' := by
  induction fuel generalizing fuel' with
  | zero => exact ⟨fun _ _ => by omega, fun _ _ => by omega⟩
  | succ fuel ih =>
    cases fuel' with
    | zero => exact ⟨fun _ _ _ => by omega, fun _ _ _ => by omega⟩
    | succ fuel' => exact ⟨setsAgree_succ (ih fuel').2, itemsAgree_succ (ih fuel').1 (ih fuel').2⟩

/-- **Sets agree.** -/
theorem agrees_readSet? (flags : Flags) (h : Trails (closing n) cs cs') (hfuel : 2 * cs.length + 2 ≤ fuel)
    (hfuel' : 2 * cs'.length + 2 ≤ fuel') :
    Agrees (closing n) Always (readSet? flags fuel cs) (readSet? flags fuel' cs') :=
  (setsAgree_and_itemsAgree flags n fuel fuel').1 h hfuel hfuel'

end FormWiring.Regex
