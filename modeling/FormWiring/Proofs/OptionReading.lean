import FormWiring.Derive.Options
import Mathlib.Data.List.Infix

/-!
# What the readers of an option take

No reader of an option looks beyond the next comma: what it takes before a comma it takes at the end of the input, and
the other way round, and only its error can tell the two apart. Marks, literals and names are read in this way, and so
is whatever is read by one such reader after another.

Main definition: `OptionReader.StopsAtComma`. Main statement: `OptionReader.stopsAtComma_optionName`.
-/

set_option autoImplicit false

namespace FormWiring

open Code

/-! ## Commas -/

/-- **Comma.** -/
def isComma : Token → Bool
  | .mark c _ => c == ','
  | _ => false

/-- **The error that a comma makes of an error at the end**: where the input ended, now the comma stands. -/
def DeriveError.beforeComma : DeriveError → DeriveError
  | .expectedLiteral kind _ => .expectedLiteral kind false
  | .expectedName _ => .expectedName false
  | .expectedOption => .tokenForOption
  | e => e

theorem DeriveError.beforeComma_beforeComma (e : DeriveError) : e.beforeComma.beforeComma = e.beforeComma := by
  cases e <;> rfl

namespace OptionReader

/-! ## Readers and commas -/

section Commas

variable {α β : Type}

/-- **What a reader gives when more tokens follow** that it does not touch. -/
def followedBy (u : List Token) : Except DeriveError (α × List Token) → Except DeriveError (α × List Token)
  | .ok (a, rest) => .ok (a, rest ++ u)
  | .error e => .error e.beforeComma

/-- **Readers that stop at commas**: what they leave is the end of what they were given, and a comma and all that
follows it play no part. -/
structure StopsAtComma (r : OptionReader α) : Prop where
  suffix : ∀ t a rest, r t = .ok (a, rest) → rest <:+ t
  followed : ∀ t c u, isComma c = true → r (t ++ c :: u) = followedBy (c :: u) (r t)

theorem bind_run (r : OptionReader α) (f : α → OptionReader β) (t : List Token) :
    (r >>= f) t = (r t >>= fun p => f p.1 p.2) :=
  rfl

theorem get_bind_run (f : List Token → OptionReader α) (t : List Token) :
    ((get : OptionReader (List Token)) >>= f) t = f t t :=
  rfl

theorem set_bind_run (u : List Token) (f : PUnit → OptionReader α) (t : List Token) :
    ((set u : OptionReader PUnit) >>= f) t = f ⟨⟩ u :=
  rfl

theorem bind_eq_ok_iff {r : OptionReader α} {f : α → OptionReader β} {t : List Token} {out : β × List Token} :
    (r >>= f) t = .ok out ↔ ∃ a rest, r t = .ok (a, rest) ∧ f a rest = .ok out := by
  rw [bind_run]
  cases h : r t with
  | error e =>
    constructor
    · intro heq
      cases heq
    · rintro ⟨a, rest, ⟨⟩, -⟩
  | ok p =>
    constructor
    · exact fun heq => ⟨p.1, p.2, rfl, heq⟩
    · rintro ⟨a, rest, heq, hf⟩
      cases heq
      exact hf

namespace StopsAtComma

theorem pure (a : α) : StopsAtComma (Pure.pure a : OptionReader α) where
  suffix t b rest h := by
    cases h
    exact List.suffix_refl t
  followed t c u _ := rfl

theorem throw {e : DeriveError} (he : e.beforeComma = e) :
    StopsAtComma (MonadExcept.throw e : OptionReader α) where
  suffix t a rest h := by cases h
  followed t c u _ := congrArg Except.error he.symm

theorem bind {r : OptionReader α} {f : α → OptionReader β} (hr : StopsAtComma r) (hf : ∀ a, StopsAtComma (f a)) :
    StopsAtComma (r >>= f) where
  suffix t b rest h := by
    obtain ⟨a, middle, hfirst, hsecond⟩ := bind_eq_ok_iff.1 h
    exact ((hf a).suffix _ _ _ hsecond).trans (hr.suffix _ _ _ hfirst)
  followed t c u hc := by
    rw [bind_run, bind_run, hr.followed t c u hc]
    cases r t with
    | error e => rfl
    | ok p => exact (hf p.1).followed p.2 c u hc

end StopsAtComma

end Commas

/-! ## Marks and literals -/

theorem startsWithMarks_singleton {m : Char} {t : List Token} :
    startsWithMarks [m] t = true ↔ ∃ joined rest, t = .mark m joined :: rest := by
  cases t with
  | nil => simp [startsWithMarks]
  | cons x t =>
    cases x with
    | mark c joined =>
      simp only [startsWithMarks, beq_iff_eq, List.cons.injEq, Token.mark.injEq]
      constructor
      · rintro rfl
        exact ⟨joined, t, ⟨rfl, rfl⟩, rfl⟩
      · rintro ⟨_, _, ⟨rfl, -⟩, -⟩
        rfl
    | word => simp [startsWithMarks]
    | literal => simp [startsWithMarks]
    | group => simp [startsWithMarks]

theorem eq_mark_of_isComma {c : Token} (hc : isComma c = true) : ∃ joined, c = .mark ',' joined := by
  cases c with
  | mark m joined => exact ⟨joined, by rw [beq_iff_eq.1 hc]⟩
  | word => cases hc
  | literal => cases hc
  | group => cases hc

/-- A comma is not among the marks that a reader looks for. -/
theorem startsWithMarks_append {cs : List Char} (hcs : ',' ∉ cs) {c : Token} (hc : isComma c = true)
    (t u : List Token) : startsWithMarks cs (t ++ c :: u) = startsWithMarks cs t := by
  obtain ⟨joined, rfl⟩ := eq_mark_of_isComma hc
  -- on the marks: once the tokens have run out, the comma is compared with a mark that is none
  induction cs generalizing t with
  | nil => rfl
  | cons m cs ih =>
    rw [List.mem_cons, not_or] at hcs
    cases t with
    | nil =>
      have hm : (m == ',') = false := beq_false_of_ne (Ne.symm hcs.1)
      cases cs <;> simp [startsWithMarks, hm]
    | cons x t =>
      cases cs with
      | nil => cases x <;> rfl
      | cons m' cs =>
        cases x with
        | mark m'' joined' =>
          change (m == m'' && joined' && startsWithMarks (m' :: cs) (t ++ .mark ',' joined :: u)) = _
          rw [ih hcs.2]
          rfl
        | word => rfl
        | literal => rfl
        | group => rfl

theorem startsWithMarks_pair {m m' : Char} {t : List Token} :
    startsWithMarks [m, m'] t = true ↔ ∃ joined rest, t = .mark m true :: .mark m' joined :: rest := by
  constructor
  · intro h
    match t, h with
    | .mark c joined :: t, h =>
      change (m == c && joined && startsWithMarks [m'] t) = true at h
      rw [Bool.and_eq_true, Bool.and_eq_true, beq_iff_eq, startsWithMarks_singleton] at h
      obtain ⟨⟨rfl, rfl⟩, joined', rest, rfl⟩ := h
      exact ⟨joined', rest, rfl⟩
  · rintro ⟨joined, rest, rfl⟩
    simp [startsWithMarks]

theorem mark_run (m : Char) (t : List Token) :
    mark m t = if startsWithMarks [m] t then .ok ((), t.drop 1) else .error (.expectedMark m) := by
  change (if startsWithMarks [m] t then set (t.drop 1) else throw (.expectedMark m) : OptionReader Unit) t = _
  split <;> rfl

theorem mark_eq_ok_iff {m : Char} {t rest : List Token} :
    mark m t = .ok ((), rest) ↔ ∃ joined, t = .mark m joined :: rest := by
  rw [mark_run]
  constructor
  · intro h
    split at h
    · next hstarts =>
      obtain ⟨joined, rest', rfl⟩ := startsWithMarks_singleton.1 hstarts
      cases h
      exact ⟨joined, rfl⟩
    · cases h
  · rintro ⟨joined, rfl⟩
    rw [if_pos (startsWithMarks_singleton.2 ⟨joined, rest, rfl⟩)]
    rfl

theorem stopsAtComma_mark {m : Char} (hm : m ≠ ',') : StopsAtComma (mark m) where
  suffix t a rest h := by
    obtain ⟨joined, rfl⟩ := mark_eq_ok_iff.1 h
    exact List.suffix_cons _ _
  followed t c u hc := by
    rw [mark_run, mark_run, startsWithMarks_append (by simpa using hm.symm) hc]
    by_cases hstarts : startsWithMarks [m] t = true
    · obtain ⟨joined, rest, rfl⟩ := startsWithMarks_singleton.1 hstarts
      rw [if_pos hstarts, if_pos hstarts]
      rfl
    · rw [if_neg hstarts, if_neg hstarts]
      rfl

/-- **A literal at the front**: a literal token, a truth value, or a number after a minus. -/
theorem leadingLiteral?_eq_some_iff {t rest : List Token} {value : LiteralValue} :
    leadingLiteral? t = some (value, rest) ↔
      (∃ text, t = .literal text :: rest ∧ literalValue text = value) ∨
        (∃ b : Bool, t = .word (if b then "true" else "false") :: rest ∧ value = .bool b) ∨
          ∃ joined text, t = .mark '-' joined :: .literal text :: rest ∧
            numberValue? true text.toList = some value := by
  constructor
  · intro h
    unfold leadingLiteral? at h
    split at h
    · next text more =>
      cases h
      exact .inl ⟨text, rfl, rfl⟩
    · next w more =>
      split at h
      · next hw =>
        cases h
        exact .inr (.inl ⟨true, by rw [beq_iff_eq.1 hw]; rfl, rfl⟩)
      · split at h
        · next hw =>
          cases h
          exact .inr (.inl ⟨false, by rw [beq_iff_eq.1 hw]; rfl, rfl⟩)
        · cases h
    · next joined text more =>
      obtain ⟨value', hvalue, heq⟩ := Option.map_eq_some_iff.1 h
      cases heq
      exact .inr (.inr ⟨joined, text, rfl, hvalue⟩)
    · cases h
  · rintro (⟨text, rfl, rfl⟩ | ⟨b, rfl, rfl⟩ | ⟨joined, text, rfl, hvalue⟩)
    · rfl
    · cases b <;> rfl
    · change (numberValue? true text.toList).map (·, rest) = _
      rw [hvalue]
      rfl

theorem leadingLiteral?_append {c : Token} (hc : isComma c = true) (t u : List Token) :
    leadingLiteral? (t ++ c :: u) = (leadingLiteral? t).map fun p => (p.1, p.2 ++ c :: u) := by
  obtain ⟨joined, rfl⟩ := eq_mark_of_isComma hc
  cases t with
  | nil => rfl
  | cons x t =>
    cases x with
    | literal text => rfl
    | word w =>
      rw [List.cons_append]
      unfold leadingLiteral?
      dsimp only
      split
      · rfl
      · split <;> rfl
    | group d inside => rfl
    | mark m joined' =>
      by_cases hm : m = '-'
      · subst hm
        cases t with
        | nil => rfl
        | cons y t =>
          cases y with
          | literal text =>
            change (numberValue? true text.toList).map _ = ((numberValue? true text.toList).map _).map _
            rw [Option.map_map]
            rfl
          | word => rfl
          | mark => rfl
          | group => rfl
      · -- only a minus begins a literal
        have hnone : ∀ more, leadingLiteral? (.mark m joined' :: more) = none := by
          intro more
          unfold leadingLiteral?
          split <;> simp_all
        rw [List.cons_append, hnone, hnone]
        rfl

theorem suffix_of_leadingLiteral? {t rest : List Token} {value : LiteralValue}
    (h : leadingLiteral? t = some (value, rest)) : rest <:+ t := by
  rcases leadingLiteral?_eq_some_iff.1 h with ⟨text, rfl, -⟩ | ⟨b, rfl, -⟩ | ⟨joined, text, rfl, -⟩
  · exact List.suffix_cons _ _
  · exact List.suffix_cons _ _
  · exact (List.suffix_cons _ _).trans (List.suffix_cons _ _)

section Literals

variable {α : Type} (kind : LiteralKind) {pick : LiteralValue → Option α}

theorem literal_run (pick : LiteralValue → Option α) (t : List Token) :
    literal kind pick t =
      ((leadingLiteral? t).bind fun p => (pick p.1).map (·, p.2)).elim
        (.error (.expectedLiteral kind t.isEmpty)) .ok := by
  unfold literal
  rw [get_bind_run]
  cases leadingLiteral? t with
  | none => rfl
  | some p =>
    dsimp only [Option.bind_some]
    cases pick p.1 <;> rfl

theorem literal_eq_ok_iff {t rest : List Token} {a : α} :
    literal kind pick t = .ok (a, rest) ↔ ∃ value, leadingLiteral? t = some (value, rest) ∧ pick value = some a := by
  rw [literal_run]
  constructor
  · intro h
    cases hout : (leadingLiteral? t).bind fun p => (pick p.1).map (·, p.2) with
    | none =>
      rw [hout] at h
      cases h
    | some out =>
      rw [hout] at h
      cases h
      obtain ⟨p, hp, hpick⟩ := Option.bind_eq_some_iff.1 hout
      obtain ⟨a', ha, heq⟩ := Option.map_eq_some_iff.1 hpick
      cases heq
      exact ⟨p.1, hp, ha⟩
  · rintro ⟨value, hvalue, ha⟩
    rw [hvalue, Option.bind_some, ha]
    rfl

theorem stopsAtComma_literal : StopsAtComma (literal kind pick) where
  suffix t a rest h := by
    obtain ⟨value, hvalue, -⟩ := (literal_eq_ok_iff kind).1 h
    exact suffix_of_leadingLiteral? hvalue
  followed t c u hc := by
    rw [literal_run, literal_run, leadingLiteral?_append hc]
    have hempty : (t ++ c :: u).isEmpty = false := by simp
    rw [hempty]
    cases leadingLiteral? t with
    | none => rfl
    | some p =>
      dsimp only [Option.map_some, Option.bind_some]
      cases pick p.1 <;> rfl

end Literals

/-! ## Names -/

theorem moreNames_succ (n : Nat) (t : List Token) :
    moreNames (n + 1) t =
      if startsWithMarks [':', ':'] t then
        match t.drop 2 with
        | .word _ :: rest => moreNames n rest >>= fun p => .ok (true, p.2)
        | rest => .error (.expectedName rest.isEmpty)
      else .ok (false, t) := by
  rw [moreNames, get_bind_run]
  split
  · cases t.drop 2 with
    | nil => rfl
    | cons x rest => cases x <;> rfl
  · rfl

/-- With fuel for all its tokens, a path does not depend on the fuel, nor on a comma after it. -/
theorem moreNames_followed {c : Token} (hc : isComma c = true) (u : List Token) (n m : Nat) (t : List Token)
    (hn : t.length < n) (hm : (t ++ c :: u).length < m) :
    moreNames m (t ++ c :: u) = followedBy (c :: u) (moreNames n t) := by
  -- on the fuel: the two colons and the word that a step takes are the same with the comma there
  induction n generalizing m t with
  | zero => exact absurd hn (Nat.not_lt_zero _)
  | succ n ih =>
    obtain ⟨m, rfl⟩ := Nat.exists_eq_succ_of_ne_zero (Nat.ne_zero_of_lt hm)
    rw [moreNames_succ, moreNames_succ, startsWithMarks_append (by decide) hc]
    by_cases hpath : startsWithMarks [':', ':'] t = true
    · obtain ⟨joined, rest, rfl⟩ := startsWithMarks_pair.1 hpath
      rw [if_pos hpath, if_pos hpath]
      simp only [List.cons_append, List.drop_succ_cons, List.drop_zero]
      cases rest with
      | nil =>
        -- no word follows the colons, and only the error tells whether a comma does
        obtain ⟨joined', rfl⟩ := eq_mark_of_isComma hc
        rfl
      | cons x rest =>
        cases x with
        | word w =>
          simp only [List.cons_append, List.length_cons] at hn hm ⊢
          rw [ih m rest (by omega) (by omega)]
          cases moreNames n rest <;> rfl
        | mark => rfl
        | literal => rfl
        | group => rfl
    · rw [if_neg hpath, if_neg hpath]
      rfl

theorem moreNames_suffix {n : Nat} {t rest : List Token} {isLong : Bool} (h : moreNames n t = .ok (isLong, rest)) :
    rest <:+ t := by
  induction n generalizing t isLong with
  | zero =>
    cases h
    exact List.suffix_refl rest
  | succ n ih =>
    rw [moreNames_succ] at h
    split at h
    · next hpath =>
      obtain ⟨joined, rest', rfl⟩ := startsWithMarks_pair.1 hpath
      rw [List.drop_succ_cons, List.drop_succ_cons, List.drop_zero] at h
      split at h
      · next w rest'' =>
        cases hmore : moreNames n rest'' with
        | error e =>
          rw [hmore] at h
          cases h
        | ok p =>
          rw [hmore] at h
          cases h
          exact (ih hmore).trans ((List.suffix_cons _ _).trans ((List.suffix_cons _ _).trans (List.suffix_cons _ _)))
      · cases h
    · cases h
      exact List.suffix_refl rest

theorem moreNames_eq_false_iff {n : Nat} {t rest : List Token} :
    moreNames (n + 1) t = .ok (false, rest) ↔ t = rest ∧ startsWithMarks [':', ':'] t = false := by
  rw [moreNames_succ]
  constructor
  · intro h
    split at h
    · split at h
      · next w rest' _ =>
        cases hmore : moreNames n rest' <;> rw [hmore] at h <;> cases h
      · cases h
    · next hpath =>
      cases h
      exact ⟨rfl, by simpa using hpath⟩
  · rintro ⟨rfl, hpath⟩
    rw [if_neg (by simp [hpath])]

theorem startsWithLiteral_mark_append {c : Token} (hc : isComma c = true) (m : Char) (joined : Bool)
    (t u : List Token) :
    startsWithLiteral (.mark m joined :: (t ++ c :: u)) = startsWithLiteral (.mark m joined :: t) := by
  obtain ⟨joined', rfl⟩ := eq_mark_of_isComma hc
  by_cases hm : m = '-'
  · subst hm
    cases t with
    | nil => rfl
    | cons x t => cases x <;> rfl
  · have hnone : ∀ more, startsWithLiteral (.mark m joined :: more) = false := by
      intro more
      unfold startsWithLiteral
      split <;> simp_all
    rw [hnone, hnone]

/-- **Path after its leading colons.** -/
def pathName (isAbsolute : Bool) : OptionReader (Option String) := fun t =>
  match t with
  | .word w :: rest =>
    moreNames (rest.length + 1) rest >>= fun p => .ok (if isAbsolute || p.1 then none else some w, p.2)
  | [] => .error .expectedOption
  | t => .error (if startsWithLiteral t then .literalForOption else .tokenForOption)

theorem optionName_run (t : List Token) :
    optionName t = pathName (startsWithMarks [':', ':'] t) (if startsWithMarks [':', ':'] t then t.drop 2 else t) := by
  unfold optionName
  rw [bind_run]
  change (match (if startsWithMarks [':', ':'] t then t.drop 2 else t) with
    | .word w :: rest => _
    | [] => _
    | _ => _ : OptionReader (Option String)) t = _
  generalize (if startsWithMarks [':', ':'] t then t.drop 2 else t) = t'
  cases t' with
  | nil => rfl
  | cons x t' => cases x <;> rfl

theorem stopsAtComma_pathName (isAbsolute : Bool) : StopsAtComma (pathName isAbsolute) where
  suffix t name rest h := by
    unfold pathName at h
    split at h
    · next w more =>
      cases hmore : moreNames (more.length + 1) more with
      | error e =>
        rw [hmore] at h
        cases h
      | ok p =>
        rw [hmore] at h
        cases h
        exact (moreNames_suffix hmore).trans (List.suffix_cons _ _)
    · cases h
    · cases h
  followed t c u hc := by
    cases t with
    | nil =>
      obtain ⟨joined, rfl⟩ := eq_mark_of_isComma hc
      cases u <;> rfl
    | cons x t =>
      cases x with
      | word w =>
        rw [List.cons_append]
        unfold pathName
        dsimp only
        rw [moreNames_followed hc u (t.length + 1) _ t (Nat.lt_succ_self _) (Nat.lt_succ_self _)]
        cases moreNames (t.length + 1) t <;> rfl
      | literal => rfl
      | group => rfl
      | mark m joined =>
        rw [List.cons_append]
        change Except.error (if startsWithLiteral (.mark m joined :: (t ++ c :: u)) then _ else _) = Except.error _
        rw [startsWithLiteral_mark_append hc]
        cases startsWithLiteral (.mark m joined :: t) <;> rfl

theorem stopsAtComma_optionName : StopsAtComma optionName where
  suffix t name rest h := by
    rw [optionName_run] at h
    have hrest := (stopsAtComma_pathName _).suffix _ _ _ h
    split at hrest
    · exact hrest.trans (List.drop_suffix 2 t)
    · exact hrest
  followed t c u hc := by
    rw [optionName_run, optionName_run, startsWithMarks_append (by decide) hc]
    by_cases hpath : startsWithMarks [':', ':'] t = true
    · obtain ⟨joined, rest, rfl⟩ := startsWithMarks_pair.1 hpath
      rw [if_pos hpath, if_pos hpath]
      exact (stopsAtComma_pathName _).followed rest c u hc
    · rw [if_neg hpath, if_neg hpath]
      exact (stopsAtComma_pathName _).followed t c u hc

/-- **A name of one word** is read from that word, if no path goes on after it. -/
theorem optionName_eq_ok_iff {t rest : List Token} {w : String} :
    optionName t = .ok (some w, rest) ↔ t = .word w :: rest ∧ startsWithMarks [':', ':'] rest = false := by
  rw [optionName_run]
  constructor
  · intro h
    by_cases hpath : startsWithMarks [':', ':'] t = true
    · rw [hpath] at h
      unfold pathName at h
      split at h
      · next w' more _ => cases hmore : moreNames (more.length + 1) more <;> rw [hmore] at h <;> cases h
      · cases h
      · cases h
    · rw [if_neg hpath, Bool.eq_false_iff.2 hpath] at h
      unfold pathName at h
      split at h
      · next w' more =>
        rcases hmore : moreNames (more.length + 1) more with _ | ⟨isLong, rest'⟩
        · rw [hmore] at h
          cases h
        · rw [hmore] at h
          cases isLong with
          | true => cases h
          | false =>
            cases h
            obtain ⟨rfl, hend⟩ := moreNames_eq_false_iff.1 hmore
            exact ⟨rfl, hend⟩
      · cases h
      · cases h
  · rintro ⟨rfl, hend⟩
    rw [if_neg (by simp [startsWithMarks])]
    change (moreNames (rest.length + 1) rest >>= _) = _
    rw [moreNames_eq_false_iff.2 ⟨rfl, hend⟩]
    rfl

end OptionReader

end FormWiring
