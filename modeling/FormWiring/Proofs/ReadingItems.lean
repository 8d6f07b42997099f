import FormWiring.Proofs.Trailing

/-!
# Reading escapes before a closing bracket

An escape is read from a text as it is read with a closing bracket behind it, but for one: a word boundary at the end
looks at what is behind it, and refuses an open brace with nothing behind that. Such a brace is left over when the
bracket follows, and it is no repetition then.

Main statements: `consumes_readEscape?`, `agrees_readEscape?`.
-/

set_option autoImplicit false

namespace FormWiring.Regex

open Text (isHexDigit digitsValue)

variable {n : Nat} {cs cs' : List Char}

theorem suffix_of_skipBlanks_eq_cons {flags : Flags} {c : Char} {rest : List Char}
    (h : skipBlanks flags cs = c :: rest) : rest <:+ cs ∧ rest.length < cs.length := by
  have hsuffix := suffix_skipBlanks flags cs
  rw [h] at hsuffix
  exact ⟨(List.suffix_cons c rest).trans hsuffix, hsuffix.length_le⟩

/-! ## Numbers -/

theorem leaves_readDigits? (flags : Flags) (digits : List Char) (count : Nat) :
    Leaves (readDigits? flags digits count) := by
  induction count generalizing digits with
  | zero =>
    rintro cs x rest ⟨⟩
    exact List.suffix_rfl
  | succ count ih =>
    intro cs x rest h
    cases cs with
    | nil => cases h
    | cons c cs =>
      rw [readDigits?] at h
      split at h
      · exact ((ih _ _ _ _ h).trans (suffix_skipBlanks flags cs)).trans (List.suffix_cons c cs)
      · cases h

theorem agrees_readDigits? (flags : Flags) (digits : List Char) (count : Nat) (h : Trails (closing n) cs cs') :
    Agrees (closing n) Always (readDigits? flags digits count cs) (readDigits? flags digits count cs') := by
  induction count generalizing digits cs cs' with
  | zero => exact .some (closing_ne_nil n) h
  | succ count ih =>
    cases h with
    | nothing => exact .none
    | other => exact .none
    | cons c rest =>
      simp only [readDigits?]
      split_ifs
      · exact ih _ (trails_skipBlanks flags (trails_append _ rest))
      · exact .none

theorem leaves_readBraced? (flags : Flags) (digits : List Char) (fuel : Nat) :
    Leaves (readBraced? flags digits fuel) := by
  induction fuel generalizing digits with
  | zero => exact nofun
  | succ fuel ih =>
    intro cs x rest h
    rw [readBraced?] at h
    split at h
    · cases h
    · rename_i c more hskip
      have hmore := (suffix_of_skipBlanks_eq_cons hskip).1
      split_ifs at h
      · cases h
        exact (suffix_skipBlanks flags more).trans hmore
      · exact (ih _ _ _ _ h).trans hmore

theorem agrees_readBraced? (flags : Flags) (digits : List Char) {fuel fuel' : Nat} (h : Trails (closing n) cs cs')
    (hfuel : cs.length < fuel) (hfuel' : cs'.length < fuel') :
    Agrees (closing n) Always (readBraced? flags digits fuel cs) (readBraced? flags digits fuel' cs') := by
  induction fuel generalizing digits fuel' cs cs' with
  | zero => omega
  | succ fuel ih =>
    cases fuel' with
    | zero => omega
    | succ fuel' =>
      have hskip := trails_skipBlanks flags h
      have hlength := (suffix_skipBlanks flags cs).length_le
      have hlength' := (suffix_skipBlanks flags cs').length_le
      simp only [readBraced?]
      generalize skipBlanks flags cs = ds at hskip hlength
      generalize skipBlanks flags cs' = ds' at hskip hlength'
      cases hskip with
      | nothing => exact .none
      | other => exact .none
      | cons c rest =>
        simp only [List.length_cons] at hlength hlength'
        dsimp only
        split_ifs
        · exact .some (closing_ne_nil n) (trails_skipBlanks flags (trails_append _ rest))
        · exact ih _ (trails_append _ rest) (by omega) (by omega)
        · exact .none

/-- **Digits of a number**, in braces or as many as are asked for. -/
def readNumberDigits? (flags : Flags) (count : Nat) (cs : List Char) : Option (List Char × List Char) :=
  match skipBlanks flags cs with
  | '\x7b' :: rest => readBraced? flags [] (rest.length + 1) rest
  | cs => readDigits? flags [] count cs

/-- **Character of digits**, if they are the number of one. -/
def charOfDigits? (digits : List Char) : Option Char :=
  if digits.isEmpty then none else charOf? (digitsValue 16 digits)

theorem readNumberDigits?_of_brace (flags : Flags) (count : Nat) {rest : List Char}
    (h : skipBlanks flags cs = '\x7b' :: rest) :
    readNumberDigits? flags count cs = readBraced? flags [] (rest.length + 1) rest := by
  simp only [readNumberDigits?, h]

theorem readNumberDigits?_of_ne (flags : Flags) (count : Nat) (h : ∀ rest, skipBlanks flags cs ≠ '\x7b' :: rest) :
    readNumberDigits? flags count cs = readDigits? flags [] count (skipBlanks flags cs) := by
  unfold readNumberDigits?
  split
  · exact absurd ‹_› (h _)
  · rfl

theorem readNumber?_eq (flags : Flags) (count : Nat) (cs : List Char) :
    readNumber? flags count cs = convert? charOfDigits? (readNumberDigits? flags count cs) := by
  have hnumber : ∀ o : Option (List Char × List Char),
      (do
        let p ← o
        if p.1.isEmpty then none
        let c ← charOf? (digitsValue 16 p.1)
        pure (c, p.2)) = convert? charOfDigits? o := by
    rintro (_ | p)
    · rfl
    · dsimp only [convert?, charOfDigits?, Option.bind_some, bind]
      split_ifs <;> rfl
  unfold readNumber?
  split
  · rename_i hskip
    rw [readNumberDigits?_of_brace flags count hskip]
    exact hnumber _
  · rename_i hskip
    rw [readNumberDigits?_of_ne flags count hskip]
    exact hnumber _

theorem leaves_readNumberDigits? (flags : Flags) (count : Nat) : Leaves (readNumberDigits? flags count) := by
  intro cs x rest h
  unfold readNumberDigits? at h
  split at h
  · rename_i more hskip
    exact (leaves_readBraced? _ _ _ _ _ _ h).trans (suffix_of_skipBlanks_eq_cons hskip).1
  · exact (leaves_readDigits? _ _ _ _ _ _ h).trans (suffix_skipBlanks flags cs)

theorem leaves_readNumber? (flags : Flags) (count : Nat) : Leaves (readNumber? flags count) := by
  intro cs x rest h
  rw [readNumber?_eq] at h
  obtain ⟨digits, hdigits, -⟩ := convert?_eq_some_iff.1 h
  exact leaves_readNumberDigits? flags count _ _ _ hdigits

theorem agrees_readNumberDigits? (flags : Flags) {count : Nat} (hcount : count ≠ 0) (h : Trails (closing n) cs cs') :
    Agrees (closing n) Always (readNumberDigits? flags count cs) (readNumberDigits? flags count cs') := by
  have hskip := trails_skipBlanks flags h
  obtain ⟨count, rfl⟩ := Nat.exists_eq_succ_of_ne_zero hcount
  unfold readNumberDigits?
  generalize skipBlanks flags cs = ds at hskip
  generalize skipBlanks flags cs' = ds' at hskip
  cases hskip with
  | nothing => exact .none
  | other => exact .none
  | cons c rest =>
    by_cases hc : c = '\x7b'
    · subst hc
      exact agrees_readBraced? flags [] (trails_append _ rest) (Nat.lt_succ_self _) (Nat.lt_succ_self _)
    · split
      · simp_all
      · split
        · simp_all
        · exact agrees_readDigits? flags [] _ (.cons c rest)

theorem agrees_readNumber? (flags : Flags) {count : Nat} (hcount : count ≠ 0) (h : Trails (closing n) cs cs') :
    Agrees (closing n) Always (readNumber? flags count cs) (readNumber? flags count cs') := by
  rw [readNumber?_eq, readNumber?_eq]
  exact (agrees_readNumberDigits? flags hcount h).convert _ fun _ _ _ _ _ => trivial

/-! ## Properties -/

theorem consumes_readName? (flags : Flags) (name : List Char) (fuel : Nat) : Consumes (readName? flags name fuel) := by
  induction fuel generalizing name with
  | zero => exact nofun
  | succ fuel ih =>
    intro cs x rest h
    rw [readName?] at h
    split at h
    · cases h
    · rename_i c more hskip
      have hmore := suffix_of_skipBlanks_eq_cons hskip
      split_ifs at h
      · cases h
        exact hmore
      · obtain ⟨hrest, hlength⟩ := ih _ _ _ _ h
        exact ⟨hrest.trans hmore.1, by omega⟩

theorem agrees_readName? (flags : Flags) (name : List Char) {fuel fuel' : Nat} (h : Trails (closing n) cs cs')
    (hfuel : cs.length < fuel) (hfuel' : cs'.length < fuel') :
    Agrees (closing n) Always (readName? flags name fuel cs) (readName? flags name fuel' cs') := by
  induction fuel generalizing name fuel' cs cs' with
  | zero => omega
  | succ fuel ih =>
    cases fuel' with
    | zero => omega
    | succ fuel' =>
      have hskip := trails_skipBlanks flags h
      have hlength := (suffix_skipBlanks flags cs).length_le
      have hlength' := (suffix_skipBlanks flags cs').length_le
      simp only [readName?]
      generalize skipBlanks flags cs = ds at hskip hlength
      generalize skipBlanks flags cs' = ds' at hskip hlength'
      cases hskip with
      | nothing => exact .none
      | other => exact .none_of_leaves (consumes_readName? flags _ fuel').leaves (by simp [closing])
      | cons c rest =>
        simp only [List.length_cons] at hlength hlength'
        dsimp only
        split_ifs
        · exact .some (closing_ne_nil n) (trails_append _ rest)
        · exact ih _ (trails_append _ rest) (by omega) (by omega)

/-- **Name of a property**, in braces or of one letter. -/
def readPropertyName? (flags : Flags) (cs : List Char) : Option (List Char × List Char) :=
  match skipBlanks flags cs with
  | '\x7b' :: rest => readName? flags [] (rest.length + 1) rest
  | c :: rest => if c == '\\' then none else some ([c], skipBlanks flags rest)
  | [] => none

/-- **Set of a property**, closed under case where case is ignored. -/
def propertyOf? (flags : Flags) (name : List Char) : Option CharSet :=
  (CharSet.ofProperty? name).map fun s => if flags.ignoreCase then .foldCase s else s

theorem readPropertyName?_of_nil {flags : Flags} (hskip : skipBlanks flags cs = []) :
    readPropertyName? flags cs = none := by
  simp only [readPropertyName?, hskip]

theorem readPropertyName?_of_brace {flags : Flags} {rest : List Char} (hskip : skipBlanks flags cs = '\x7b' :: rest) :
    readPropertyName? flags cs = readName? flags [] (rest.length + 1) rest := by
  simp only [readPropertyName?, hskip]

theorem readPropertyName?_of_ne {flags : Flags} {c : Char} {rest : List Char} (hskip : skipBlanks flags cs = c :: rest)
    (hc : c ≠ '\x7b') :
    readPropertyName? flags cs = if c == '\\' then none else some ([c], skipBlanks flags rest) := by
  unfold readPropertyName?
  rw [hskip]
  split <;> simp_all

theorem readProperty?_eq (flags : Flags) (cs : List Char) :
    readProperty? flags cs =
      convert? (propertyOf? flags) (if flags.unicode then readPropertyName? flags cs else none) := by
  have hproperty : ∀ o : Option (List Char × List Char),
      (do
        let p ← o
        let s ← CharSet.ofProperty? p.1
        pure (if flags.ignoreCase then .foldCase s else s, p.2)) = convert? (propertyOf? flags) o := by
    rintro (_ | p)
    · rfl
    · dsimp only [convert?, propertyOf?, Option.bind_some, bind]
      cases CharSet.ofProperty? p.1 <;> rfl
  unfold readProperty?
  cases flags.unicode with
  | false => rfl
  | true =>
    simp only [Bool.not_true, Bool.false_eq_true, if_false, if_true]
    split
    · rename_i hskip
      rw [readPropertyName?_of_brace hskip]
      exact hproperty _
    · rename_i c rest hbrace hskip
      rw [readPropertyName?_of_ne hskip hbrace]
      by_cases hc : (c == '\\') = true
      · rw [if_pos hc, if_pos hc]
        exact hproperty none
      · rw [if_neg hc, if_neg hc]
        exact hproperty (some _)
    · rename_i hskip
      rw [readPropertyName?_of_nil hskip]
      exact hproperty none

theorem consumes_readPropertyName? (flags : Flags) : Consumes (readPropertyName? flags) := by
  intro cs x rest h
  unfold readPropertyName? at h
  split at h
  · rename_i more hskip
    obtain ⟨hrest, hlength⟩ := consumes_readName? _ _ _ _ _ _ h
    have hmore := suffix_of_skipBlanks_eq_cons hskip
    exact ⟨hrest.trans hmore.1, by omega⟩
  · rename_i c more _ hskip
    have hmore := suffix_of_skipBlanks_eq_cons hskip
    split_ifs at h
    cases h
    have hrest := suffix_skipBlanks flags more
    exact ⟨hrest.trans hmore.1, by have := hrest.length_le; omega⟩
  · cases h

theorem consumes_readProperty? (flags : Flags) : Consumes (readProperty? flags) := by
  intro cs x rest h
  rw [readProperty?_eq] at h
  obtain ⟨name, hname, -⟩ := convert?_eq_some_iff.1 h
  split_ifs at hname
  exact consumes_readPropertyName? flags _ _ _ hname

theorem agrees_readPropertyName? (flags : Flags) (h : Trails (closing n) cs cs') :
    Agrees (closing n) Always (readPropertyName? flags cs) (readPropertyName? flags cs') := by
  have hskip := trails_skipBlanks flags h
  generalize hds : skipBlanks flags cs = ds at hskip
  generalize hds' : skipBlanks flags cs' = ds' at hskip
  cases hskip with
  | nothing =>
    rw [readPropertyName?_of_nil hds, readPropertyName?_of_nil hds']
    exact .none
  | other =>
    rw [readPropertyName?_of_nil hds, readPropertyName?_of_ne hds' (by decide)]
    refine .of_none_of_forall fun name rest heq => ?_
    have hlength := congrArg List.length (Prod.mk.inj (Option.some.inj heq)).2
    have hskip := (suffix_skipBlanks flags (List.replicate n '$')).length_le
    simp [closing] at hlength hskip
    omega
  | cons c rest =>
    by_cases hc : c = '\x7b'
    · subst hc
      rw [readPropertyName?_of_brace hds, readPropertyName?_of_brace hds']
      exact agrees_readName? flags [] (trails_append _ rest) (Nat.lt_succ_self _) (Nat.lt_succ_self _)
    · rw [readPropertyName?_of_ne hds hc, readPropertyName?_of_ne hds' hc]
      split_ifs
      · exact .none
      · exact .some (closing_ne_nil n) (trails_skipBlanks flags (trails_append _ rest))

theorem agrees_readProperty? (flags : Flags) (h : Trails (closing n) cs cs') :
    Agrees (closing n) Always (readProperty? flags cs) (readProperty? flags cs') := by
  rw [readProperty?_eq, readProperty?_eq]
  have hname : Agrees (closing n) Always (if flags.unicode then readPropertyName? flags cs else none)
      (if flags.unicode then readPropertyName? flags cs' else none) := by
    split_ifs
    · exact agrees_readPropertyName? flags h
    · exact .none
  exact hname.convert _ fun _ _ _ _ _ => trivial

/-! ## Word boundaries -/

theorem leaves_readBoundaryName? (flags : Flags) (name : List Char) (fuel : Nat) :
    Leaves (readBoundaryName? flags name fuel) := by
  induction fuel generalizing name with
  | zero => exact nofun
  | succ fuel ih =>
    intro cs x rest h
    cases cs with
    | nil => cases h
    | cons c more =>
      rw [readBoundaryName?] at h
      split_ifs at h
      · cases h
        exact List.suffix_cons c _
      · exact ((ih _ _ _ _ h).trans (suffix_skipBlanks flags more)).trans (List.suffix_cons c more)

theorem agrees_readBoundaryName? (flags : Flags) (name : List Char) {fuel fuel' : Nat} (h : Trails (closing n) cs cs')
    (hfuel : cs.length < fuel) (hfuel' : cs'.length < fuel') :
    Agrees (closing n) Always (readBoundaryName? flags name fuel cs) (readBoundaryName? flags name fuel' cs') := by
  induction fuel generalizing name fuel' cs cs' with
  | zero => omega
  | succ fuel ih =>
    cases fuel' with
    | zero => omega
    | succ fuel' =>
      cases h with
      | nothing => exact .none
      | other => exact .none
      | cons c rest =>
        have hlength := (suffix_skipBlanks flags rest).length_le
        have hlength' := (suffix_skipBlanks flags (rest ++ closing n)).length_le
        simp only [List.length_cons] at hfuel hfuel'
        simp only [readBoundaryName?]
        split_ifs
        · exact .some (closing_ne_nil n) (trails_append _ rest)
        · exact ih _ (trails_skipBlanks flags (trails_append _ rest)) (by omega) (by omega)
        · exact .none

/-- **Dangling brace**: one that opens at the end of the text. A word boundary before it is refused; with something
behind it, it is left for a repetition. -/
def Dangling (flags : Flags) (cs : List Char) : Prop :=
  ∃ rest, cs = '\x7b' :: rest ∧ skipBlanks flags rest = []

/-- **Kind of word boundary** with a name. -/
def boundaryOf? (plain : Bool) (name : String) : Option Anchor :=
  match name with
  | "start" => some (.wordStart plain)
  | "end" => some (.wordEnd plain)
  | "start-half" => some (.wordStartHalf plain)
  | "end-half" => some (.wordEndHalf plain)
  | _ => none

theorem readBoundary?_brace (flags : Flags) (rest : List Char) :
    readBoundary? flags ('\x7b' :: rest) =
      match skipBlanks flags rest with
      | [] => none
      | c :: more =>
        if c.isAlpha || c == '-' then
          convert? (boundaryOf? (!flags.unicode)) (readBoundaryName? flags [] (more.length + 2) (c :: more))
        else some (.wordBoundary (!flags.unicode), '\x7b' :: rest) := by
  simp only [readBoundary?]
  cases skipBlanks flags rest with
  | nil => rfl
  | cons c more =>
    dsimp only
    split_ifs
    · rcases readBoundaryName? flags [] (more.length + 2) (c :: more) with _ | ⟨name, rest⟩
      · rfl
      · simp only [convert?, Option.bind_some, bind, boundaryOf?]
        split <;> simp_all
    · rfl

theorem readBoundary?_of_ne (flags : Flags) {cs : List Char} (h : ∀ rest, cs ≠ '\x7b' :: rest) :
    readBoundary? flags cs = some (.wordBoundary (!flags.unicode), cs) := by
  unfold readBoundary?
  split
  · exact absurd rfl (h _)
  · rfl

theorem leaves_readBoundary? (flags : Flags) : Leaves (readBoundary? flags) := by
  intro cs x rest h
  by_cases hbrace : ∃ more, cs = '\x7b' :: more
  · obtain ⟨more, rfl⟩ := hbrace
    rw [readBoundary?_brace] at h
    split at h
    · cases h
    · rename_i c others hskip
      split_ifs at h
      · obtain ⟨name, hname, -⟩ := convert?_eq_some_iff.1 h
        have hskipped := suffix_skipBlanks flags more
        rw [hskip] at hskipped
        exact ((leaves_readBoundaryName? _ _ _ _ _ _ hname).trans hskipped).trans (List.suffix_cons _ more)
      · cases h
        exact List.suffix_rfl
  · rw [readBoundary?_of_ne flags fun more h => hbrace ⟨more, h⟩] at h
    cases h
    exact List.suffix_rfl

/-- **Word boundaries agree**, unless a brace is left that dangles. -/
theorem agrees_readBoundary? (flags : Flags) (h : Trails (closing n) cs cs') :
    Agrees (closing n) (fun _ rest => ¬Dangling flags rest) (readBoundary? flags cs) (readBoundary? flags cs') := by
  cases h with
  | nothing => exact .some (closing_ne_nil n) .nothing
  | other => exact .some (closing_ne_nil n) .other
  | cons c rest =>
    by_cases hc : c = '\x7b'
    · subst hc
      have hskip := trails_skipBlanks flags (trails_append (closing n) rest)
      rw [readBoundary?_brace, readBoundary?_brace]
      generalize hds : skipBlanks flags rest = ds at hskip
      generalize skipBlanks flags (rest ++ closing n) = ds' at hskip
      cases hskip with
      | nothing => exact .none
      | other =>
        refine .of_none_of_forall fun a left heq hdangling => hdangling ⟨rest, ?_, hds⟩
        have hleft : '\x7b' :: (rest ++ closing n) = left ++ closing n := (Prod.mk.inj (Option.some.inj heq)).2
        rw [← List.cons_append] at hleft
        exact (List.append_cancel_right hleft).symm
      | cons d more =>
        dsimp only
        split_ifs
        · refine (agrees_readBoundaryName? flags [] (.cons d more) ?_ ?_).convert _ fun _ _ _ _ _ => trivial
          · simp
          · simp
        · exact .some (closing_ne_nil n) (.cons _ rest)
    · rw [readBoundary?_of_ne flags (cons_ne_cons_of_ne hc _), readBoundary?_of_ne flags (cons_ne_cons_of_ne hc _)]
      exact .some (closing_ne_nil n) (.cons c rest)

/-! ## Escapes -/

/-- **What follows the letter of an escape**: nothing, a number, a property or a kind of word boundary. -/
theorem readEscape?_cases (flags : Flags) (c : Char) :
    (∀ rest, readEscape? flags (c :: rest) = none) ∨
    (∃ p, ∀ rest, readEscape? flags (c :: rest) = some (p, rest)) ∨
    (∃ count ≠ 0, ∀ rest, readEscape? flags (c :: rest) =
      (readNumber? flags count rest).map fun (c, rest) => (.literal c, rest)) ∨
    (∃ f : CharSet → CharSet, ∀ rest, readEscape? flags (c :: rest) =
      (readProperty? flags rest).map fun (s, rest) => (.set (f s), rest)) ∨
    ∀ rest, readEscape? flags (c :: rest) = (readBoundary? flags rest).map fun (a, rest) => (.anchor a, rest) := by
  simp only [readEscape?]
  by_cases hdigit : c.isDigit = true
  · simp only [if_pos hdigit]
    exact .inl fun _ => trivial
  simp only [if_neg hdigit]
  by_cases hx : (c == 'x') = true
  · simp only [if_pos hx]
    exact .inr (.inr (.inl ⟨2, nofun, fun _ => rfl⟩))
  simp only [if_neg hx]
  by_cases hu : (c == 'u') = true
  · simp only [if_pos hu]
    exact .inr (.inr (.inl ⟨4, nofun, fun _ => rfl⟩))
  simp only [if_neg hu]
  by_cases hlong : (c == 'U') = true
  · simp only [if_pos hlong]
    exact .inr (.inr (.inl ⟨8, nofun, fun _ => rfl⟩))
  simp only [if_neg hlong]
  by_cases hp : (c == 'p') = true
  · simp only [if_pos hp]
    exact .inr (.inr (.inr (.inl ⟨id, fun _ => rfl⟩)))
  simp only [if_neg hp]
  by_cases hnot : (c == 'P') = true
  · simp only [if_pos hnot]
    exact .inr (.inr (.inr (.inl ⟨.complement, fun _ => rfl⟩)))
  simp only [if_neg hnot]
  by_cases hclass : (c == 'd' || c == 's' || c == 'w') = true
  · simp only [if_pos hclass]
    exact .inr (.inl ⟨_, fun _ => rfl⟩)
  simp only [if_neg hclass]
  by_cases hother : (c == 'D' || c == 'S' || c == 'W') = true
  · simp only [if_pos hother]
    cases allowed? flags (.complement (classOf flags c.toLower)) with
    | none => exact .inl fun _ => rfl
    | some s => exact .inr (.inl ⟨.set s, fun _ => rfl⟩)
  simp only [if_neg hother]
  by_cases hescapable : isEscapable c = true
  · simp only [if_pos hescapable]
    exact .inr (.inl ⟨_, fun _ => rfl⟩)
  simp only [if_neg hescapable]
  split
  case h_9 => exact .inr (.inr (.inr (.inr fun _ => rfl)))
  case h_10 =>
    split_ifs
    · exact .inr (.inl ⟨_, fun _ => rfl⟩)
    · exact .inl fun _ => rfl
  case h_13 => exact .inl fun _ => rfl
  all_goals exact .inr (.inl ⟨_, fun _ => rfl⟩)

theorem consumes_readEscape? (flags : Flags) : Consumes (readEscape? flags) := by
  intro cs x rest h
  cases cs with
  | nil => cases h
  | cons c cs =>
    refine suffix_cons_of_suffix ?_
    rcases readEscape?_cases flags c with hc | ⟨p, hc⟩ | ⟨count, -, hc⟩ | ⟨f, hc⟩ | hc
    · rw [hc] at h
      cases h
    · rw [hc] at h
      cases h
      exact List.suffix_rfl
    · exact (leaves_readNumber? flags count).map _ _ _ _ (hc cs ▸ h)
    · exact (consumes_readProperty? flags).leaves.map (fun s => Primitive.set (f s)) _ _ _ (hc cs ▸ h)
    · exact (leaves_readBoundary? flags).map _ _ _ _ (hc cs ▸ h)

/-- **An anchor is read** and leaves a dangling brace. -/
def DanglingAnchor (flags : Flags) (p : Primitive) (rest : List Char) : Prop :=
  (∃ a, p = .anchor a) ∧ Dangling flags rest

/-- **Escapes agree**, unless a word boundary leaves a dangling brace. -/
theorem agrees_readEscape? (flags : Flags) (h : Trails (closing n) cs cs') :
    Agrees (closing n) (fun p rest => ¬DanglingAnchor flags p rest) (readEscape? flags cs) (readEscape? flags cs') := by
  cases h with
  | nothing => exact .none
  | other => exact .none_of_consumes (consumes_readEscape? flags) .other
  | cons c rest =>
    have htrails := trails_append (closing n) rest
    rcases readEscape?_cases flags c with hc | ⟨p, hc⟩ | ⟨count, hcount, hc⟩ | ⟨f, hc⟩ | hc
    · rw [hc, hc]
      exact .none
    · rw [hc, hc]
      exact .some (closing_ne_nil n) htrails
    · rw [hc, hc]
      exact (agrees_readNumber? flags hcount htrails).map _ fun _ _ _ => trivial
    · rw [hc, hc]
      exact (agrees_readProperty? flags htrails).map (fun s => Primitive.set (f s)) fun _ _ _ => trivial
    · rw [hc, hc]
      exact (agrees_readBoundary? flags htrails).map _ fun a _ hseen hdangling => hseen ⟨⟨a, rfl⟩, hdangling⟩

end FormWiring.Regex
