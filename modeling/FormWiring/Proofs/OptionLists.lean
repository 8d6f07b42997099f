import FormWiring.Proofs.OptionValues
import Mathlib.Data.List.Forall2

/-!
# Options one by one

The options of an attribute are what stands between its commas. No reader of an option looks beyond the next comma, so
reading an attribute is reading its options one after the other, each as if nothing else were there. Only an error can
tell whether a comma follows: where an option breaks off, it says that the input ends instead of what stands there.

Main definition: `optionParts`. Main statements: `OptionReader.foldOptions_parts`,
`OptionReader.foldOptions_eq_ok_iff`.
-/

set_option autoImplicit false

namespace FormWiring

open Code

/-! ## Parts -/

/-- **Options in a list of tokens**: what stands between the commas. A comma at the end ends the last option and
starts no other. -/
def optionParts : List Token → List (List Token)
  | [] => []
  | t :: rest =>
    if isComma t then [] :: optionParts rest
    else
      match optionParts rest with
      | [] => [[t]]
      | p :: ps => (t :: p) :: ps

/-- **Rows of options**, seen option by option. -/
inductive IsRow : List (List Token) → List Token → Prop where
  | nil : IsRow [] []
  | last {p : List Token} (hp : ∀ t ∈ p, isComma t = false) (hne : p ≠ []) : IsRow [p] p
  | comma {p : List Token} {c : Token} {ps : List (List Token)} {rest : List Token}
      (hp : ∀ t ∈ p, isComma t = false) (hc : isComma c = true) (hrest : IsRow ps rest) :
      IsRow (p :: ps) (p ++ c :: rest)

theorem IsRow.eq_nil {ps : List (List Token)} (h : IsRow ps []) : ps = [] := by
  generalize ht : ([] : List Token) = t at h
  cases h with
  | nil => rfl
  | last hp hne => exact absurd ht.symm hne
  | comma hp hc hrest => exact absurd ht.symm (by simp)

theorem isRow_optionParts (tokens : List Token) : IsRow (optionParts tokens) tokens := by
  induction tokens with
  | nil => exact .nil
  | cons t rest ih =>
    unfold optionParts
    by_cases ht : isComma t = true
    · rw [if_pos ht]
      exact .comma (p := []) (by simp) ht ih
    · rw [if_neg ht]
      have ht' : isComma t = false := by simpa using ht
      generalize optionParts rest = ps at ih
      -- the token joins the first option of the rest, if there is one
      cases ih with
      | nil => exact .last (by simpa using ht') (by simp)
      | last hp hne => exact .last (by simpa using ⟨ht', hp⟩) (by simp)
      | comma hp hc hrest => exact .comma (p := t :: _) (by simpa using ⟨ht', hp⟩) hc hrest

theorem optionParts_comma {p : List Token} (hp : ∀ t ∈ p, isComma t = false) {c : Token} (hc : isComma c = true)
    (rest : List Token) : optionParts (p ++ c :: rest) = p :: optionParts rest := by
  induction p with
  | nil => rw [List.nil_append, optionParts, if_pos hc]
  | cons t p ih =>
    have ht : ¬ isComma t = true := by simpa using hp t List.mem_cons_self
    rw [List.cons_append, optionParts, if_neg ht, ih fun u hu => hp u (List.mem_cons_of_mem t hu)]

/-- No option has a comma in it. -/
theorem isComma_of_mem_optionParts {tokens p : List Token} (hp : p ∈ optionParts tokens) {t : Token} (ht : t ∈ p) :
    isComma t = false := by
  have hrow := isRow_optionParts tokens
  generalize optionParts tokens = ps at hrow hp
  induction hrow with
  | nil => cases hp
  | last hlast _ => exact hlast t (List.mem_singleton.1 hp ▸ ht)
  | comma hfirst _ _ ih =>
    rcases List.mem_cons.1 hp with rfl | hp
    · exact hfirst t ht
    · exact ih hp

/-- **Some options in a row**, with a comma after each. -/
def joinParts (ps : List (List Token)) : List Token :=
  ps.flatMap fun p => p ++ [.mark ',' false]

theorem optionParts_joinParts {ps : List (List Token)} (h : ∀ p ∈ ps, ∀ t ∈ p, isComma t = false) :
    optionParts (joinParts ps) = ps := by
  induction ps with
  | nil => rfl
  | cons p ps ih =>
    have hrest : joinParts (p :: ps) = p ++ .mark ',' false :: joinParts ps := by simp [joinParts]
    rw [hrest, optionParts_comma (h p List.mem_cons_self) rfl, ih fun q hq => h q (List.mem_cons_of_mem p hq)]

namespace OptionReader

/-! ## Reading part by part -/

section Parts

variable {σ : Type} (step : σ → Option String → OptionReader σ)

/-- **State after an option** that stands for itself. If it breaks off, the error is as if a comma came after it. -/
def readPart (s : σ) (p : List Token) : Except DeriveError σ :=
  match (optionName >>= step s) p with
  | .ok (s', []) => .ok s'
  | .ok (_, _ :: _) => .error (.expectedMark ',')
  | .error e => .error e.beforeComma

theorem readPart_eq_ok_iff {s s' : σ} {p : List Token} :
    readPart step s p = .ok s' ↔ (optionName >>= step s) p = .ok (s', []) := by
  unfold readPart
  constructor
  · intro h
    split at h
    · next heq =>
      cases h
      exact heq
    · cases h
    · cases h
  · intro h
    rw [h]

/-- **Row after an option** that left these tokens. -/
def afterOption (n : Nat) (s : σ) (left : List Token) : Except DeriveError (σ × List Token) :=
  if left.isEmpty then .ok (s, left)
  else mark ',' left >>= fun q => if q.2.isEmpty then .ok (s, q.2) else options step n s q.2

theorem options_succ (n : Nat) (s : σ) (t : List Token) :
    options step (n + 1) s t = (optionName >>= step s) t >>= fun p => afterOption step n p.1 p.2 := by
  have hafter (s : σ) (left : List Token) :
      (do
        if (← get).isEmpty then
          pure s
        else
          mark ','
          if (← get).isEmpty then pure s else options step n s : OptionReader σ) left = afterOption step n s left := by
    rw [get_bind_run, afterOption]
    split
    · rfl
    · rw [bind_run]
      refine bind_congr fun q => ?_
      rw [get_bind_run]
      split <;> rfl
  rw [options, ← bind_assoc optionName (step s), bind_run]
  exact bind_congr fun p => hafter p.1 p.2

/-- A comma at the end starts no further option. -/
theorem afterOption_comma {c : Token} (hc : isComma c = true) (n : Nat) (s : σ) (rest : List Token) :
    afterOption step n s (c :: rest) = if rest.isEmpty then .ok (s, rest) else options step n s rest := by
  obtain ⟨joined, rfl⟩ := eq_mark_of_isComma hc
  rw [afterOption, if_neg (by simp), mark_eq_ok_iff.2 ⟨joined, rfl⟩]
  rfl

theorem afterOption_of_not_isComma {t : Token} (ht : isComma t = false) (n : Nat) (s : σ) (rest : List Token) :
    afterOption step n s (t :: rest) = .error (.expectedMark ',') := by
  have hmark : ¬ startsWithMarks [','] (t :: rest) = true := by
    rw [startsWithMarks_singleton]
    rintro ⟨joined, rest', heq⟩
    cases heq
    cases ht
  rw [afterOption, if_neg (by simp), mark_run, if_neg hmark]
  rfl

/-- **Reading a row of options** is reading them one by one; only an error at its end may read differently. -/
theorem options_parts (hstep : ∀ s name, StopsAtComma (step s name)) {ps : List (List Token)} {t : List Token}
    (hrow : IsRow ps t) (hne : t ≠ []) {n : Nat} (hn : t.length ≤ n + 1) (s : σ) :
    ((·.1) <$> options step (n + 1) s t).mapError DeriveError.beforeComma = ps.foldlM (readPart step) s := by
  have hread (s : σ) : StopsAtComma (optionName >>= step s) := stopsAtComma_optionName.bind (hstep s)
  -- on the row: after a comma the rest is a shorter row, and there is fuel left for it
  induction hrow generalizing n s with
  | nil => exact absurd rfl hne
  | @last p hp hpne =>
    rw [options_succ, List.foldlM_cons, readPart]
    rcases hfirst : (optionName >>= step s) p with e | ⟨s', left⟩
    · rfl
    · cases left with
      | nil => rfl
      | cons x left =>
        have hx : isComma x = false := hp x (((hread s).suffix _ _ _ hfirst).subset List.mem_cons_self)
        change ((·.1) <$> afterOption step n s' (x :: left)).mapError DeriveError.beforeComma =
          .error (.expectedMark ',')
        rw [afterOption_of_not_isComma step hx]
        rfl
  | @comma p c ps rest hp hc hrest ih =>
    rw [options_succ, List.foldlM_cons, readPart, (hread s).followed p c rest hc]
    rcases hfirst : (optionName >>= step s) p with e | ⟨s', left⟩
    · exact congrArg Except.error e.beforeComma_beforeComma
    · cases left with
      | nil =>
        change ((·.1) <$> afterOption step n s' (c :: rest)).mapError DeriveError.beforeComma =
          List.foldlM (readPart step) s' ps
        rw [afterOption_comma step hc]
        cases rest with
        | nil =>
          rw [hrest.eq_nil]
          rfl
        | cons x rest =>
          rw [List.length_append, List.length_cons, List.length_cons] at hn
          obtain ⟨m, rfl⟩ := Nat.exists_eq_succ_of_ne_zero (show n ≠ 0 by omega)
          exact ih (List.cons_ne_nil x rest) (by rw [List.length_cons]; omega) s'
      | cons x left =>
        have hx : isComma x = false := hp x (((hread s).suffix _ _ _ hfirst).subset List.mem_cons_self)
        change ((·.1) <$> afterOption step n s' (x :: (left ++ c :: rest))).mapError DeriveError.beforeComma =
          .error (.expectedMark ',')
        rw [afterOption_of_not_isComma step hx]
        rfl

/-- **Reading an attribute** is reading its options one by one; only an error at its end may read differently. -/
theorem foldOptions_parts (hstep : ∀ s name, StopsAtComma (step s name)) (s : σ) (tokens : List Token) :
    (foldOptions step s tokens).mapError DeriveError.beforeComma = (optionParts tokens).foldlM (readPart step) s := by
  unfold foldOptions
  cases tokens with
  | nil => rfl
  | cons t tokens =>
    rw [if_neg (by simp)]
    exact options_parts step hstep (isRow_optionParts (t :: tokens)) (List.cons_ne_nil t tokens) (Nat.le_refl _) s

end Parts

/-! ## Options given -/

section Given

variable {σ ι : Type} {step : σ → Option String → OptionReader σ} {label : ι → String} {value : ι → GivenValue}
  {apply : σ → ι → Option σ}

/-- **Steps that take given options**: a name of one word, and a value that is applied to the state. -/
def Takes (step : σ → Option String → OptionReader σ) (label : ι → String) (value : ι → GivenValue)
    (apply : σ → ι → Option σ) : Prop :=
  ∀ s name t s' rest, step s name t = .ok (s', rest) ↔
    ∃ i joined spelling, name = some (label i) ∧ t = .mark '=' joined :: (spelling ++ rest) ∧
      (value i).Spells spelling ∧ apply s i = some s'

/-- One option is read if it is the spelling of one that can be applied. -/
theorem readPart_eq_ok_iff_of_takes (h : Takes step label value apply) (s : σ) (p : List Token) (s' : σ) :
    readPart step s p = .ok s' ↔ ∃ i, (value i).SpellsOption (label i) p ∧ apply s i = some s' := by
  rw [readPart_eq_ok_iff, bind_eq_ok_iff]
  constructor
  · rintro ⟨name, rest, hname, hstep⟩
    obtain ⟨i, joined, spelling, rfl, rfl, hspells, happly⟩ := (h _ _ _ _ _).1 hstep
    obtain ⟨rfl, -⟩ := optionName_eq_ok_iff.1 hname
    rw [List.append_nil]
    exact ⟨i, ⟨joined, spelling, rfl, hspells⟩, happly⟩
  · rintro ⟨i, ⟨joined, spelling, rfl, hspells⟩, happly⟩
    refine ⟨some (label i), _, optionName_eq_ok_iff.2 ⟨rfl, by simp [startsWithMarks]⟩, (h _ _ _ _ _).2 ?_⟩
    exact ⟨i, joined, spelling, rfl, by rw [List.append_nil], hspells, happly⟩

/-- **Options read one by one** are options given one by one. -/
theorem foldlM_readPart_eq_ok_iff (h : Takes step label value apply) (ps : List (List Token)) (s s' : σ) :
    ps.foldlM (readPart step) s = .ok s' ↔
      ∃ given, List.Forall₂ (fun i p => (value i).SpellsOption (label i) p) given ps ∧
        given.foldlM apply s = some s' := by
  have hread := readPart_eq_ok_iff_of_takes h
  induction ps generalizing s with
  | nil =>
    constructor
    · intro h
      cases h
      exact ⟨[], .nil, rfl⟩
    · rintro ⟨given, hgiven, h⟩
      cases hgiven
      cases h
      rfl
  | cons p ps ih =>
    rw [List.foldlM_cons]
    constructor
    · intro h
      cases hfirst : readPart step s p with
      | error e =>
        rw [hfirst] at h
        cases h
      | ok s₁ =>
        rw [hfirst] at h
        obtain ⟨i, hi, happly⟩ := (hread s p s₁).1 hfirst
        obtain ⟨given, hgiven, hfold⟩ := (ih s₁).1 h
        refine ⟨i :: given, .cons hi hgiven, ?_⟩
        rw [List.foldlM_cons, happly]
        exact hfold
    · rintro ⟨given, hgiven, h⟩
      cases hgiven with
      | @cons i _ given _ hi hgiven =>
        rw [List.foldlM_cons, Option.bind_eq_bind, Option.bind_eq_some_iff] at h
        obtain ⟨s₁, happly, hfold⟩ := h
        rw [(hread s p s₁).2 ⟨i, hi, happly⟩]
        exact (ih s₁).2 ⟨given, hgiven, hfold⟩

/-- An error stays an error when it is told as if a comma came after it. -/
theorem mapError_eq_ok_iff {x : Except DeriveError σ} {s : σ} :
    x.mapError DeriveError.beforeComma = .ok s ↔ x = .ok s := by
  cases x with
  | error e => exact ⟨nofun, nofun⟩
  | ok s' => exact Iff.rfl

/-- **An attribute is read** if its options are spellings of options that can be applied one after the other. -/
theorem foldOptions_eq_ok_iff (hstep : ∀ s name, StopsAtComma (step s name)) (h : Takes step label value apply)
    (s : σ) (tokens : List Token) (s' : σ) :
    foldOptions step s tokens = .ok s' ↔
      ∃ given, List.Forall₂ (fun i p => (value i).SpellsOption (label i) p) given (optionParts tokens) ∧
        given.foldlM apply s = some s' := by
  rw [← mapError_eq_ok_iff, foldOptions_parts step hstep, foldlM_readPart_eq_ok_iff h]

end Given

end OptionReader

end FormWiring
