import FormWiring.Proofs.Contract
import FormWiring.Proofs.Meaning

/-!
# Which reports a form makes

Every field that calls for a validator is reported on once, on its own input, and a start has the first limit reported
on as well. Names are different, so an input has at most one report, except that of the first limit: it has one from
every start, and only the last of these decides what it shows.

Main statement: `forall_lastReport?_refused_iff`.
-/

set_option autoImplicit false

namespace FormWiring

/-! ## Faults -/

/-- **Exceeding**: two finite numbers, the first one greater. -/
def exceeds (start limit : String) : Bool :=
  match enteredNumber? start, enteredNumber? limit with
  | some a, some b => b < a
  | _, _ => false

/-- What is no number is not exceeded. -/
theorem exceeds_of_eq_none {limit : String} (h : enteredNumber? limit = none) (start : String) :
    exceeds start limit = false := by
  unfold exceeds
  rw [h]
  cases enteredNumber? start <;> rfl

namespace Validator

/-- **Fault found** by a validator with the text of an input: its own input fails the check, the confirming one
differs from the confirmed one, a side of a range is no number, or both are and are out of order. -/
def FindsFault (text : String → String) (name : String) : Validator → Prop
  | single b check => name = b.input ∧ check.accepts (text b.input) = false
  | confirmation confirmed b => name = b.input ∧ text b.input ≠ text confirmed
  | between start limit =>
    (name = start.input ∨ name = limit.input) ∧
      (enteredNumber? (text name) = none ∨ exceeds (text start.input) (text limit.input) = true)

/-- The start of a range is refused when it is no number or exceeds the limit. -/
theorem betweenVerdicts_fst (start limit : String) :
    (betweenVerdicts (enteredNumber? start) (enteredNumber? limit)).1 = false ↔
      enteredNumber? start = none ∨ exceeds start limit = true := by
  unfold exceeds
  cases hstart : enteredNumber? start with
  | none => simp [betweenVerdicts]
  | some a =>
    cases hlimit : enteredNumber? limit with
    | none => simp [betweenVerdicts]
    | some b => simp [betweenVerdicts]

/-- The limit of a range is refused when it is no number or is exceeded. -/
theorem betweenVerdicts_snd (start limit : String) :
    (betweenVerdicts (enteredNumber? start) (enteredNumber? limit)).2 = false ↔
      enteredNumber? limit = none ∨ exceeds start limit = true := by
  unfold exceeds
  cases hstart : enteredNumber? start with
  | none => cases hlimit : enteredNumber? limit <;> simp [betweenVerdicts]
  | some a =>
    cases hlimit : enteredNumber? limit with
    | none => simp [betweenVerdicts]
    | some b => simp [betweenVerdicts]

theorem reports_between (s : Screen) (start limit : Binding) :
    (between start limit).reports s =
      [⟨start, (betweenVerdicts (enteredNumber? (s.text start.input)) (enteredNumber? (s.text limit.input))).1⟩,
        ⟨limit, (betweenVerdicts (enteredNumber? (s.text start.input)) (enteredNumber? (s.text limit.input))).2⟩] := by
  simp only [reports, numberIn?, enteredNumber?]

/-- A validator finds fault with an input exactly when it refuses it in one of its reports. -/
theorem findsFault_iff (s : Screen) (name : String) (v : Validator) :
    v.FindsFault s.text name ↔ ∃ r ∈ v.reports s, r.binding.input = name ∧ r.accepted = false := by
  cases v with
  | single b check =>
    simp only [FindsFault, reports, List.mem_singleton, exists_eq_left]
    exact and_congr_left' eq_comm
  | confirmation confirmed b =>
    simp only [FindsFault, reports, List.mem_singleton, exists_eq_left, beq_eq_false_iff_ne]
    exact and_congr_left' eq_comm
  | between start limit =>
    have hstart := betweenVerdicts_fst (s.text start.input) (s.text limit.input)
    have hlimit := betweenVerdicts_snd (s.text start.input) (s.text limit.input)
    rw [reports_between]
    simp only [List.mem_cons, List.not_mem_nil, or_false, exists_eq_or_imp, exists_eq_left, hstart, hlimit]
    constructor
    · rintro ⟨rfl | rfl, hfault⟩
      · exact .inl ⟨rfl, hfault⟩
      · exact .inr ⟨rfl, hfault⟩
    · rintro (⟨rfl, hfault⟩ | ⟨rfl, hfault⟩)
      · exact ⟨.inl rfl, hfault⟩
      · exact ⟨.inr rfl, hfault⟩

/-- Some validator finds fault with an input exactly when one of the reports of all refuses it. -/
theorem exists_findsFault_iff (s : Screen) (vs : List Validator) (name : String) :
    (∃ v ∈ vs, v.FindsFault s.text name) ↔
      ∃ r ∈ vs.flatMap (reports s), r.binding.input = name ∧ r.accepted = false := by
  simp only [findsFault_iff, List.mem_flatMap]
  constructor
  · rintro ⟨v, hv, r, hr, hrefused⟩
    exact ⟨r, ⟨v, hv, hr⟩, hrefused⟩
  · rintro ⟨r, ⟨v, hv, hr⟩, hrefused⟩
    exact ⟨v, hv, r, hr, hrefused⟩

end Validator

/-! ## Last reports -/

/-- The last report on an input is the last of those that are on it. -/
theorem lastReport?_eq_getLast? (name : String) (rs : List Report) :
    lastReport? name rs = (rs.filter fun r => r.binding.input == name).getLast? := by
  unfold lastReport?
  rw [← List.head?_filter, List.filter_reverse, List.head?_reverse]

/-- Some report on an input is a refusal whenever the last one is. -/
theorem exists_refusal_of_lastReport? {rs : List Report} {name : String} {r : Report}
    (hlast : lastReport? name rs = some r) (hrefused : r.accepted = false) :
    ∃ r ∈ rs, r.binding.input = name ∧ r.accepted = false := by
  rw [lastReport?_eq_getLast?] at hlast
  obtain ⟨hmem, hon⟩ := List.mem_filter.1 (List.mem_of_getLast? hlast)
  exact ⟨r, hmem, by simpa using hon, hrefused⟩

/-- A report puts an error on its input exactly when it is a refusal. -/
theorem isSome_shown (r : Report) : r.shown.isSome = true ↔ r.accepted = false := by
  unfold Report.shown
  cases r.accepted <;> simp

namespace Field

variable (lookup : Int32 → String) (fields : List Field) (s : Screen)

/-! ## Reports of fields -/

/-- **Reports made for a field**, by the validator it calls for. -/
def reportsFor (f : Field) : List Report :=
  ((f.validator? lookup fields).map (Validator.reports s)).getD []

/-- **Report on the limit** that is made for a start. -/
def limitReport (limit start : Field) : Report :=
  ⟨limit.binding lookup,
    (Validator.betweenVerdicts (enteredNumber? (s.text start.name)) (enteredNumber? (s.text limit.name))).2⟩

theorem limitReport_refused (limit start : Field) :
    (limitReport lookup s limit start).accepted = false ↔
      enteredNumber? (s.text limit.name) = none ∨ exceeds (s.text start.name) (s.text limit.name) = true :=
  Validator.betweenVerdicts_snd (s.text start.name) (s.text limit.name)

theorem flatMap_reports (l : List Field) :
    (l.filterMap (Field.validator? lookup fields)).flatMap (Validator.reports s) =
      l.flatMap (Field.reportsFor lookup fields s) := by
  induction l with
  | nil => rfl
  | cons f l ih =>
    rw [List.filterMap_cons, List.flatMap_cons, ← ih]
    unfold reportsFor
    cases f.validator? lookup fields <;> rfl

/-- **Reports made for a field**: none, for a start only if there is no limit; one on its own input, if it is no side
of a range; or, for a start, one on its own input and one on the first limit. -/
theorem reportsFor_cases (f : Field) :
    (Field.reportsFor lookup fields s f = [] ∧
        (f.rule = .betweenStart → firstOfKind? fields .betweenLimit = none)) ∨
      (f.rule ≠ .betweenStart ∧ f.rule ≠ .betweenLimit ∧
        ∃ accepted, Field.reportsFor lookup fields s f = [⟨f.binding lookup, accepted⟩]) ∨
      (f.rule = .betweenStart ∧ ∃ limit, firstOfKind? fields .betweenLimit = some limit ∧
        ∃ accepted, Field.reportsFor lookup fields s f =
          [⟨f.binding lookup, accepted⟩, Field.limitReport lookup s limit f]) := by
  cases hcheck : f.rule.check? with
  | some check =>
    -- a rule with a check of its own stands alone
    have hsides : f.rule ≠ .betweenStart ∧ f.rule ≠ .betweenLimit := by
      refine ⟨fun hrule => ?_, fun hrule => ?_⟩
      · simp [hrule, Rule.check?] at hcheck
      · simp [hrule, Rule.check?] at hcheck
    have hvalidator := validator?_of_check? lookup fields hcheck
    refine .inr (.inl ⟨hsides.1, hsides.2, check.accepts (s.text f.name), ?_⟩)
    unfold reportsFor
    rw [hvalidator]
    rfl
  | none =>
    -- the other rules are paired, and report on nothing when they lack their partner
    rcases paired_of_check?_eq_none hcheck with hrule | hrule | hrule | hrule
    · cases hpartner : firstOfKind? fields .email with
      | none => exact .inl ⟨by simp [reportsFor, validator?, hrule, hpartner], by simp [hrule]⟩
      | some g =>
        refine .inr (.inl ⟨by simp [hrule], by simp [hrule], s.text f.name == s.text g.name, ?_⟩)
        simp [reportsFor, validator?, hrule, hpartner, Validator.reports, binding]
    · cases hpartner : firstOfKind? fields .password with
      | none => exact .inl ⟨by simp [reportsFor, validator?, hrule, hpartner], by simp [hrule]⟩
      | some g =>
        refine .inr (.inl ⟨by simp [hrule], by simp [hrule], s.text f.name == s.text g.name, ?_⟩)
        simp [reportsFor, validator?, hrule, hpartner, Validator.reports, binding]
    · cases hpartner : firstOfKind? fields .betweenLimit with
      | none => exact .inl ⟨by simp [reportsFor, validator?, hrule, hpartner], fun _ => rfl⟩
      | some limit =>
        refine .inr (.inr ⟨hrule, limit, rfl, (Validator.betweenVerdicts (enteredNumber? (s.text f.name))
          (enteredNumber? (s.text limit.name))).1, ?_⟩)
        simp only [reportsFor, validator?, hrule, hpartner, Option.map_some, Option.getD_some,
          Validator.reports_between, limitReport, binding]
    · exact .inl ⟨by simp [reportsFor, validator?, hrule, Rule.check?], by simp [hrule]⟩

end Field

/-! ## Reports of forms -/

theorem flatMap_ite_singleton {α β : Type} (p : α → Prop) [DecidablePred p] (g : α → β) (l : List α) :
    (l.flatMap fun a => if p a then [g a] else []) = (l.filter fun a => p a).map g := by
  induction l with
  | nil => rfl
  | cons a l ih =>
    rw [List.flatMap_cons, List.filter_cons, ih]
    by_cases h : p a
    · simp [h]
    · simp [h]

/-- **Starts** among fields, in declaration order. -/
def starts (fields : List Field) : List Field :=
  fields.filter fun f => f.rule = .betweenStart

theorem rule_of_firstOfKind? {fields : List Field} {limit : Field}
    (hlimit : firstOfKind? fields .betweenLimit = some limit) :
    limit ∈ fields ∧ limit.rule = .betweenLimit := by
  have hkind : limit.kind = .betweenLimit := by simpa using List.find?_some hlimit
  refine ⟨List.mem_of_find?_eq_some hlimit, ?_⟩
  unfold Field.kind at hkind
  cases hrule : limit.rule <;> simp_all [Rule.kind]

section Reports

variable {form : Form} (hcheck : form.check = .ok ()) (lookup : Int32 → String) (s : Screen)
include hcheck

/-- An input that is not the first limit has at most one report: that on the field it is the input of. -/
theorem eq_of_reports_on {name : String}
    (hname : ∀ limit, firstOfKind? form.fields .betweenLimit = some limit → limit.name ≠ name) {r r' : Report}
    (hr : r ∈ form.fields.flatMap (Field.reportsFor lookup form.fields s)) (hon : r.binding.input = name)
    (hr' : r' ∈ form.fields.flatMap (Field.reportsFor lookup form.fields s)) (hon' : r'.binding.input = name) :
    r = r' := by
  -- a report on the input is the first one made for some field of that name
  have hown : ∀ q : Report, q.binding.input = name → ∀ f : Field,
      q ∈ Field.reportsFor lookup form.fields s f →
        f.name = name ∧ (Field.reportsFor lookup form.fields s f).head? = some q := by
    intro q hq f hmem
    rcases Field.reportsFor_cases lookup form.fields s f with
      ⟨hnone, -⟩ | ⟨-, -, accepted, hone⟩ | ⟨-, limit, hlimit, accepted, htwo⟩
    · rw [hnone] at hmem
      exact absurd hmem List.not_mem_nil
    · rw [hone] at hmem ⊢
      obtain rfl := List.mem_singleton.1 hmem
      exact ⟨hq, rfl⟩
    · rw [htwo] at hmem ⊢
      rcases List.mem_cons.1 hmem with rfl | hmem
      · exact ⟨hq, rfl⟩
      · obtain rfl := List.mem_singleton.1 hmem
        exact absurd hq (hname limit hlimit)
  obtain ⟨f, hf, hmem⟩ := List.mem_flatMap.1 hr
  obtain ⟨f', hf', hmem'⟩ := List.mem_flatMap.1 hr'
  obtain ⟨hfname, hhead⟩ := hown r hon f hmem
  obtain ⟨hfname', hhead'⟩ := hown r' hon' f' hmem'
  obtain rfl : f = f' := form.eq_of_name_eq hcheck hf hf' (hfname.trans hfname'.symm)
  exact Option.some.inj (hhead.symm.trans hhead')

/-- The reports on the first limit are those that the starts make, in declaration order. -/
theorem filter_reports_limit {limit : Field} (hlimit : firstOfKind? form.fields .betweenLimit = some limit) :
    (form.fields.flatMap (Field.reportsFor lookup form.fields s)).filter
        (fun r => r.binding.input == limit.name) =
      (starts form.fields).map (Field.limitReport lookup s limit) := by
  obtain ⟨hmem, hrule⟩ := rule_of_firstOfKind? hlimit
  -- no other field bears the limit's name, so what a field reports on the limit is known from its rule
  have hfield : ∀ f ∈ form.fields,
      (Field.reportsFor lookup form.fields s f).filter (fun r => r.binding.input == limit.name) =
        if f.rule = .betweenStart then [Field.limitReport lookup s limit f] else [] := by
    intro f hf
    have hne : f.rule ≠ .betweenLimit → f.name ≠ limit.name := by
      intro hother hname
      rw [form.eq_of_name_eq hcheck hf hmem hname] at hother
      exact hother hrule
    rcases Field.reportsFor_cases lookup form.fields s f with
      ⟨hnone, hstart⟩ | ⟨hstart, hself, accepted, hone⟩ | ⟨hstart, limit', hlimit', accepted, htwo⟩
    · -- nothing is reported, so the field is no start: a start has the first limit for its partner
      have hother : f.rule ≠ .betweenStart := by
        intro h
        rw [hstart h] at hlimit
        exact absurd hlimit (by simp)
      rw [hnone, if_neg hother]
      rfl
    · -- the one report is on the field's own input
      rw [hone, if_neg hstart]
      simp [Field.binding, hne hself]
    · obtain rfl : limit' = limit := Option.some.inj (hlimit'.symm.trans hlimit)
      -- of the two reports of a start only the second is on the limit
      rw [htwo, if_pos hstart]
      have hself : f.name ≠ limit'.name := hne (by simp [hstart])
      simp [Field.binding, Field.limitReport, hself]
  calc (form.fields.flatMap (Field.reportsFor lookup form.fields s)).filter
        (fun r => r.binding.input == limit.name)
      = form.fields.flatMap fun f => (Field.reportsFor lookup form.fields s f).filter
          (fun r => r.binding.input == limit.name) := List.filter_flatMap
    _ = form.fields.flatMap fun f =>
          if f.rule = .betweenStart then [Field.limitReport lookup s limit f] else [] :=
        List.flatMap_congr hfield
    _ = (starts form.fields).map (Field.limitReport lookup s limit) := flatMap_ite_singleton _ _ _

/-- **Masking** of a limit: some start exceeds the first limit, but the last start does not. -/
def MasksLimit (fields : List Field) (text : String → String) : Prop :=
  ∃ limit last, firstOfKind? fields .betweenLimit = some limit ∧ (starts fields).getLast? = some last ∧
    exceeds (text last.name) (text limit.name) = false ∧
      ∃ start ∈ starts fields, exceeds (text start.name) (text limit.name) = true

/-- An input that is not the first limit has a refusal for its last report as soon as it has one at all. -/
theorem lastReport?_refused_of_ne {name : String}
    (hname : ∀ limit, firstOfKind? form.fields .betweenLimit = some limit → limit.name ≠ name)
    (hfault : ∃ r ∈ form.fields.flatMap (Field.reportsFor lookup form.fields s),
      r.binding.input = name ∧ r.accepted = false) :
    ∃ r, lastReport? name (form.fields.flatMap (Field.reportsFor lookup form.fields s)) = some r ∧
      r.accepted = false := by
  obtain ⟨r, hr, hon, hrefused⟩ := hfault
  obtain ⟨last, hlast⟩ := Option.isSome_iff_exists.1 ((lastReport?_isSome_iff name _).2 ⟨r, hr, hon⟩)
  refine ⟨last, hlast, ?_⟩
  rw [lastReport?_eq_getLast?] at hlast
  obtain ⟨hmem, honlast⟩ := List.mem_filter.1 (List.mem_of_getLast? hlast)
  rw [← eq_of_reports_on hcheck lookup s hname hr hon hmem (by simpa using honlast)]
  exact hrefused

/-- On the first limit some report is a refusal exactly when a start makes one. -/
theorem refused_limit_iff {limit : Field} (hlimit : firstOfKind? form.fields .betweenLimit = some limit) :
    (∃ r ∈ form.fields.flatMap (Field.reportsFor lookup form.fields s),
        r.binding.input = limit.name ∧ r.accepted = false) ↔
      ∃ start ∈ starts form.fields,
        enteredNumber? (s.text limit.name) = none ∨ exceeds (s.text start.name) (s.text limit.name) = true := by
  have hfilter := filter_reports_limit hcheck lookup s hlimit
  have hmem : ∀ r : Report,
      (r ∈ form.fields.flatMap (Field.reportsFor lookup form.fields s) ∧ r.binding.input = limit.name) ↔
        ∃ start ∈ starts form.fields, Field.limitReport lookup s limit start = r := by
    intro r
    rw [← List.mem_map, ← hfilter, List.mem_filter, beq_iff_eq]
  constructor
  · rintro ⟨r, hr, hon, hrefused⟩
    obtain ⟨start, hstart, rfl⟩ := (hmem r).1 ⟨hr, hon⟩
    exact ⟨start, hstart, (Field.limitReport_refused lookup s limit start).1 hrefused⟩
  · rintro ⟨start, hstart, hfault⟩
    obtain ⟨hr, hon⟩ := (hmem _).2 ⟨start, hstart, rfl⟩
    exact ⟨_, hr, hon, (Field.limitReport_refused lookup s limit start).2 hfault⟩

/-- On the first limit the last report is a refusal exactly when the last start makes one. -/
theorem lastReport?_limit_iff {limit : Field} (hlimit : firstOfKind? form.fields .betweenLimit = some limit) :
    (∃ r, lastReport? limit.name (form.fields.flatMap (Field.reportsFor lookup form.fields s)) = some r ∧
        r.accepted = false) ↔
      ∃ last, (starts form.fields).getLast? = some last ∧
        (enteredNumber? (s.text limit.name) = none ∨ exceeds (s.text last.name) (s.text limit.name) = true) := by
  rw [lastReport?_eq_getLast?, filter_reports_limit hcheck lookup s hlimit, List.getLast?_map]
  constructor
  · rintro ⟨r, hr, hrefused⟩
    obtain ⟨last, hlast, rfl⟩ := Option.map_eq_some_iff.1 hr
    exact ⟨last, hlast, (Field.limitReport_refused lookup s limit last).1 hrefused⟩
  · rintro ⟨last, hlast, hfault⟩
    exact ⟨_, Option.map_eq_some_iff.2 ⟨last, hlast, rfl⟩, (Field.limitReport_refused lookup s limit last).2 hfault⟩

/-- **The last report tells every refusal** but for a masked limit. -/
theorem forall_lastReport?_refused_iff :
    (∀ name, (∃ r ∈ form.fields.flatMap (Field.reportsFor lookup form.fields s),
          r.binding.input = name ∧ r.accepted = false) →
        ∃ r, lastReport? name (form.fields.flatMap (Field.reportsFor lookup form.fields s)) = some r ∧
          r.accepted = false) ↔
      ¬ MasksLimit form.fields s.text := by
  constructor
  · rintro htold ⟨limit, last, hlimit, hlast, hcontent, start, hstart, hexceeds⟩
    have hrefused := (refused_limit_iff hcheck lookup s hlimit).2 ⟨start, hstart, .inr hexceeds⟩
    obtain ⟨last', hlast', hfault⟩ := (lastReport?_limit_iff hcheck lookup s hlimit).1 (htold limit.name hrefused)
    obtain rfl : last' = last := Option.some.inj (hlast'.symm.trans hlast)
    rcases hfault with hnone | hexceeds'
    · -- the limit is a number, since a start exceeds it
      rw [exceeds_of_eq_none hnone] at hexceeds
      cases hexceeds
    · rw [hcontent] at hexceeds'
      cases hexceeds'
  · intro hmasks name hrefused
    -- the first limit is the only input with more than one report
    by_cases hname : ∃ limit, firstOfKind? form.fields .betweenLimit = some limit ∧ limit.name = name
    · obtain ⟨limit, hlimit, rfl⟩ := hname
      obtain ⟨start, hstart, hfault⟩ := (refused_limit_iff hcheck lookup s hlimit).1 hrefused
      have hlast := List.getLast?_eq_some_getLast (List.ne_nil_of_mem hstart)
      set last := (starts form.fields).getLast (List.ne_nil_of_mem hstart)
      refine (lastReport?_limit_iff hcheck lookup s hlimit).2 ⟨last, hlast, ?_⟩
      -- a limit that is no number is refused by every start, so by the last one too
      rcases hfault with hnone | hexceeds
      · exact .inl hnone
      · cases hcontent : exceeds (s.text last.name) (s.text limit.name) with
        | true => exact .inr rfl
        | false => exact absurd ⟨limit, last, hlimit, hlast, hcontent, start, hstart, hexceeds⟩ hmasks
    · refine lastReport?_refused_of_ne hcheck lookup s ?_ hrefused
      exact fun limit hlimit hsame => hname ⟨limit, hlimit, hsame⟩

end Reports

end FormWiring
