import FormWiring.Proofs.Shown

/-!
# Whose error an input shows

A step leaves an error on an input only if it was there before or a validator has just refused the texts. So whatever a
session went through, an input shows a message of one of its own bindings. Names of a form are different, which leaves
each input with the binding of its own field: its message is the only one the input ever shows, and its wish for
dismissal the only one that counts.

Main statements: `Form.current_of_shown`, `Form.inputs_obey_fields`.
-/

set_option autoImplicit false

namespace FormWiring

/-! ## Where errors come from -/

/-- An error shown after reports was shown before them, or one of them is the refusal that says so. -/
theorem Screen.exists_refusal_of_error {rs : List Report} {s : Screen} {name m : String}
    (h : (rs.foldl Screen.report s).error name = some m) :
    s.error name = some m ∨ ∃ r ∈ rs, r.binding.input = name ∧ r.accepted = false ∧ r.binding.message = m := by
  rw [error_foldl_report] at h
  cases hlast : lastReport? name rs with
  | none =>
    rw [hlast] at h
    exact .inl h
  | some r =>
    rw [hlast, Option.map_some, Option.getD_some] at h
    rw [lastReport?_eq_getLast?] at hlast
    obtain ⟨hmem, hon⟩ := List.mem_filter.1 (List.mem_of_getLast? hlast)
    have hrefused : r.accepted = false := (isSome_shown r).1 (h ▸ rfl)
    unfold Report.shown at h
    rw [hrefused, if_neg Bool.false_ne_true] at h
    exact .inr ⟨r, hmem, by simpa using hon, hrefused, Option.some.inj h⟩

namespace Session

/-- No step changes what a change of text does to an input. -/
theorem dismisses_step (x : Session) (step : Step) (name : String) :
    ((x.step step).1.screen.input name).dismisses = (x.screen.input name).dismisses := by
  cases step with
  | enter input text => exact Screen.dismisses_enter x.screen input text name
  | evaluate =>
    rw [step_evaluate]
    exact Screen.dismisses_foldl_report _ x.screen name
  | clear => exact ValidatorSet.dismisses_clear x.set x.screen name
  | size => rfl
  | evaluateOne index =>
    unfold Session.step
    dsimp only
    split
    · next v _ => exact Screen.dismisses_foldl_report (v.reports x.screen) x.screen name
    · rfl
  | clearOne index =>
    unfold Session.step
    dsimp only
    split
    · next v _ => exact ValidatorSet.dismisses_foldl_hide v.bindings x.screen name
    · rfl
  | add index => unfold Session.step; dsimp only; split <;> rfl

/-- A text that is given from outside makes nobody watch its input. -/
theorem dismisses_ofTexts (texts : List (String × String)) (name : String) :
    ((Screen.ofTexts texts).input name).dismisses = false := by
  unfold Screen.ofTexts
  refine (Screen.apply_foldl (fun s => (s.input name).dismisses) _ ?_ texts {}).trans rfl
  intro s a
  exact Screen.apply_input_update Input.dismisses (fun i => { i with text := a.2 }) (fun _ => rfl) s a.1 name

variable (texts : List (String × String)) (vs : List Validator) (steps : List Step) (name : String)

/-- A session goes on watching the inputs that its validators asked for when they were bound. -/
theorem dismisses_run :
    (((start (.ofTexts texts) vs).run steps).screen.input name).dismisses = true ↔
      ∃ v ∈ vs, ∃ b ∈ v.bindings, b.autoDismiss = true ∧ b.input = name := by
  have hrun : (((start (.ofTexts texts) vs).run steps).screen.input name).dismisses =
      ((start (.ofTexts texts) vs).screen.input name).dismisses :=
    run_invariant (P := fun y => (y.screen.input name).dismisses =
        ((start (.ofTexts texts) vs).screen.input name).dismisses)
      (fun y hy step _ => (dismisses_step y step name).trans hy) rfl
  rw [hrun]
  refine (Screen.dismisses_attachAll vs (.ofTexts texts) name).trans ?_
  rw [dismisses_ofTexts]
  simp

/-- **Where an error comes from.** After a step an input shows an error only if it did so before and, being one that
hides its error when its text changes, kept its text, or if a validator refuses it on the texts there are now. -/
theorem Tidy.error_step {x : Session} (h : Tidy x) (step : Step) {name m : String}
    (hm : (x.step step).1.screen.error name = some m) :
    (x.screen.error name = some m ∧
        ((x.screen.input name).dismisses = true → (x.step step).1.screen.text name = x.screen.text name)) ∨
      ∃ v ∈ x.built, ∃ r ∈ v.reports (x.step step).1.screen,
        r.binding.input = name ∧ r.accepted = false ∧ r.binding.message = m := by
  -- but for a text that is entered, the texts are the same, so reports made before the step hold after it
  have htexts : (∀ input text, step ≠ .enter input text) → (x.step step).1.screen.SameTexts x.screen := by
    intro hstep other
    rw [text_step]
    split
    · next input text => exact absurd rfl (hstep input text)
    · rfl
  have hkept : (∀ input text, step ≠ .enter input text) → x.screen.error name = some m →
      x.screen.error name = some m ∧
        ((x.screen.input name).dismisses = true → (x.step step).1.screen.text name = x.screen.text name) :=
    fun hstep hold => ⟨hold, fun _ => htexts hstep name⟩
  have hrefused : (∀ input text, step ≠ .enter input text) → ∀ v ∈ x.built, ∀ r ∈ v.reports x.screen,
      r.binding.input = name ∧ r.accepted = false ∧ r.binding.message = m →
        ∃ v ∈ x.built, ∃ r ∈ v.reports (x.step step).1.screen,
          r.binding.input = name ∧ r.accepted = false ∧ r.binding.message = m := by
    intro hstep v hv r hr hrefusal
    exact ⟨v, hv, r, (Validator.reports_congr (htexts hstep) v).symm ▸ hr, hrefusal⟩
  cases step with
  | enter input text =>
    have herror := (Screen.error_enter x.screen input text name).symm.trans hm
    by_cases hhidden : name = input ∧ (x.screen.input input).dismisses = true
    · rw [if_pos hhidden] at herror
      cases herror
    · rw [if_neg hhidden] at herror
      refine .inl ⟨herror, fun hdismisses => ?_⟩
      have hother : name ≠ input := by
        rintro rfl
        exact hhidden ⟨rfl, hdismisses⟩
      exact (Screen.text_enter x.screen input text name).trans (if_neg hother)
  | evaluate =>
    have hreports := congrArg (fun out => out.1.screen.error name) (step_evaluate x)
    rcases Screen.exists_refusal_of_error (hreports.symm.trans hm) with hold | ⟨r, hr, hrefusal⟩
    · exact .inl (hkept (by simp) hold)
    · obtain ⟨v, hv, hr⟩ := List.mem_flatMap.1 hr
      exact .inr (hrefused (by simp) v (h.built v hv) r hr hrefusal)
  | clear =>
    have herror := (ValidatorSet.error_clear x.set x.screen name).symm.trans hm
    split at herror
    · cases herror
    · exact .inl (hkept (by simp) herror)
  | size => exact .inl (hkept (by simp) hm)
  | evaluateOne index =>
    cases hbuilt : x.built[index]? with
    | none =>
      simp only [Session.step, hbuilt] at hm
      exact .inl (hkept (by simp) hm)
    | some v =>
      simp only [Session.step, hbuilt] at hm
      rcases Screen.exists_refusal_of_error hm with hold | ⟨r, hr, hrefusal⟩
      · exact .inl (hkept (by simp) hold)
      · exact .inr (hrefused (by simp) v (List.mem_of_getElem? hbuilt) r hr hrefusal)
  | clearOne index =>
    refine .inl (hkept (by simp) ?_)
    cases hbuilt : x.built[index]? with
    | none => simpa only [Session.step, hbuilt] using hm
    | some v =>
      simp only [Session.step, hbuilt] at hm
      have herror := (ValidatorSet.error_foldl_hide v.bindings x.screen name).symm.trans hm
      split at herror
      · cases herror
      · exact herror
  | add index =>
    refine .inl (hkept (by simp) ?_)
    cases hbuilt : x.built[index]? with
    | none => simpa only [Session.step, hbuilt] using hm
    | some v => simpa only [Session.step, hbuilt] using hm

/-! ## What an error tells -/

variable {texts vs steps name}

/-- **What an error tells** of the text of its input. Whatever holds of a text and a message when a validator refuses
the text with it holds of every error shown, if the input hides its error when its text changes or if it does not
matter what the text is. -/
theorem tells_of_error {P : String → String → Prop}
    (hrefused : ∀ v ∈ vs, ∀ s : Screen, ∀ r ∈ v.reports s, r.binding.input = name → r.accepted = false →
      P (s.text name) r.binding.message)
    (hkept : (∃ v ∈ vs, ∃ b ∈ v.bindings, b.autoDismiss = true ∧ b.input = name) ∨ ∀ t t' m, P t m → P t' m)
    {m : String} (h : ((start (.ofTexts texts) vs).run steps).screen.error name = some m) :
    P (((start (.ofTexts texts) vs).run steps).screen.text name) m := by
  suffices hrun : Tidy ((start (.ofTexts texts) vs).run steps) ∧
      ((start (.ofTexts texts) vs).run steps).built = vs ∧
        ((((start (.ofTexts texts) vs).run steps).screen.input name).dismisses = true ∨ ∀ t t' m, P t m → P t' m) ∧
          ∀ m, ((start (.ofTexts texts) vs).run steps).screen.error name = some m →
            P (((start (.ofTexts texts) vs).run steps).screen.text name) m from hrun.2.2.2 m h
  refine run_invariant (P := fun y => Tidy y ∧ y.built = vs ∧
    ((y.screen.input name).dismisses = true ∨ ∀ t t' m, P t m → P t' m) ∧
      ∀ m, y.screen.error name = some m → P (y.screen.text name) m) ?_
    ⟨tidy_start texts vs, rfl, hkept.imp_left (dismisses_run texts vs [] name).2, fun m hm => ?_⟩
  · rintro y ⟨htidy, hbuilt, hinput, htells⟩ step -
    refine ⟨htidy.step step, (built_step y step).trans hbuilt, ?_, fun m hm => ?_⟩
    · rwa [dismisses_step]
    rcases htidy.error_step step hm with ⟨hold, htext⟩ | ⟨v, hv, r, hr, hon, hno, rfl⟩
    · rcases hinput with hdismisses | hany
      · rw [htext hdismisses]
        exact htells m hold
      · exact hany _ _ m (htells m hold)
    · exact hrefused v (hbuilt ▸ hv) _ r hr hon hno
  · -- a session starts without errors
    have hnone := (Screen.error_attachAll vs (.ofTexts texts) name).trans (Screen.error_ofTexts texts name)
    cases hnone.symm.trans hm

/-- **An input shows messages of its own bindings**, whatever happened. -/
theorem exists_binding_of_error {m : String}
    (h : ((start (.ofTexts texts) vs).run steps).screen.error name = some m) :
    ∃ v ∈ vs, ∃ b ∈ v.bindings, b.input = name ∧ b.message = m := by
  refine tells_of_error (P := fun _ m => ∃ v ∈ vs, ∃ b ∈ v.bindings, b.input = name ∧ b.message = m) ?_
    (.inr fun _ _ _ hm => hm) h
  intro v hv s r hr hon _
  refine ⟨v, hv, r.binding, ?_, hon, rfl⟩
  rw [← Validator.map_binding_reports s v]
  exact List.mem_map_of_mem hr

/-- **No stale error** on an input that hides its error when its text changes, if only validators of a single input
report on it: one of these refuses the text there is now, and it is its message that is shown. -/
theorem exists_rejection_of_error (hwatched : ∃ v ∈ vs, ∃ b ∈ v.bindings, b.autoDismiss = true ∧ b.input = name)
    (hsingle : ∀ v ∈ vs, name ∈ v.reportedInputs → ∃ b check, v = .single b check) {m : String}
    (h : ((start (.ofTexts texts) vs).run steps).screen.error name = some m) :
    ∃ b check, .single b check ∈ vs ∧ b.input = name ∧ b.message = m ∧
      check.accepts (((start (.ofTexts texts) vs).run steps).screen.text name) = false := by
  refine tells_of_error (P := fun t m => ∃ b check, .single b check ∈ vs ∧ b.input = name ∧ b.message = m ∧
    check.accepts t = false) ?_ (.inl hwatched) h
  intro v hv s r hr hon hno
  have hreported : name ∈ v.reportedInputs := by
    unfold Validator.reportedInputs
    rw [← Validator.map_binding_reports s v, List.map_map]
    exact List.mem_map.2 ⟨r, hr, hon⟩
  -- a validator of a single input looks at no other text
  obtain ⟨b, check, rfl⟩ := hsingle v hv hreported
  obtain rfl := List.mem_singleton.1 hr
  exact ⟨b, check, hv, hon, rfl, hon ▸ hno⟩

end Session

/-! ## Bindings of a form -/

section Bindings

variable {fields : List Field} {lookup : Int32 → String}

/-- **Validator of a field**: its own check on its own input, a comparison that it reports on, or a range that it starts
and the first limit ends. -/
theorem Field.validator?_cases {f : Field} {v : Validator} (hv : f.validator? lookup fields = some v) :
    (∃ check, f.rule.check? = some check ∧ v = .single (f.binding lookup) check) ∨
      (f.rule.check? = none ∧ ∃ confirmed, v = .confirmation confirmed (f.binding lookup)) ∨
      (f.rule = .betweenStart ∧ ∃ limit, firstOfKind? fields .betweenLimit = some limit ∧
        v = .between (f.binding lookup) (limit.binding lookup)) := by
  cases hcheck : f.rule.check? with
  | some check =>
    rw [validator?_of_check? lookup fields hcheck] at hv
    exact .inl ⟨check, rfl, (Option.some.inj hv).symm⟩
  | none =>
    rcases paired_of_check?_eq_none hcheck with hrule | hrule | hrule | hrule
    · simp only [validator?, hrule, Option.map_eq_some_iff] at hv
      obtain ⟨g, -, rfl⟩ := hv
      exact .inr (.inl ⟨rfl, g.name, rfl⟩)
    · simp only [validator?, hrule, Option.map_eq_some_iff] at hv
      obtain ⟨g, -, rfl⟩ := hv
      exact .inr (.inl ⟨rfl, g.name, rfl⟩)
    · simp only [validator?, hrule, Option.map_eq_some_iff] at hv
      obtain ⟨limit, hlimit, rfl⟩ := hv
      exact .inr (.inr ⟨hrule, limit, hlimit, rfl⟩)
    · simp [validator?, hrule, Rule.check?] at hv

/-- A validator of a form is bound to inputs of fields, with the message and the wish for dismissal of each. -/
theorem exists_field_of_binding {v : Validator} (hv : v ∈ fields.filterMap (Field.validator? lookup fields))
    {b : Binding} (hb : b ∈ v.bindings) : ∃ f ∈ fields, b = f.binding lookup := by
  obtain ⟨f, hf, hvalidator⟩ := List.mem_filterMap.1 hv
  rcases Field.validator?_cases hvalidator with ⟨check, -, rfl⟩ | ⟨-, confirmed, rfl⟩ | ⟨-, limit, hlimit, rfl⟩
  · exact ⟨f, hf, List.mem_singleton.1 hb⟩
  · exact ⟨f, hf, List.mem_singleton.1 hb⟩
  · rcases List.mem_cons.1 hb with rfl | hb
    · exact ⟨f, hf, rfl⟩
    · exact ⟨limit, (rule_of_firstOfKind? hlimit).1, List.mem_singleton.1 hb⟩

/-- A rule stands alone exactly when it has a check of its own. -/
theorem Rule.isSome_check?_iff (rule : Rule) : rule.check?.isSome = true ↔ rule.kind.pairing = .single := by
  cases rule <;> simp [Rule.check?, Rule.kind, RuleKind.pairing]

variable {form : Form} (hcheck : form.check = .ok ())
include hcheck

/-- **An input of a form has the binding of its own field only**, however many validators bring it. -/
theorem Form.binding_eq {v : Validator} (hv : v ∈ form.fields.filterMap (Field.validator? lookup form.fields))
    {b : Binding} (hb : b ∈ v.bindings) {f : Field} (hf : f ∈ form.fields) (hname : b.input = f.name) :
    b = f.binding lookup := by
  obtain ⟨g, hg, rfl⟩ := exists_field_of_binding hv hb
  rw [form.eq_of_name_eq hcheck hg hf hname]

/-- On the input of a field whose rule stands alone no validator reports but the field's own. -/
theorem Form.eq_single_of_reported {f : Field} (hf : f ∈ form.fields) {check : FieldCheck}
    (hrule : f.rule.check? = some check) {v : Validator}
    (hv : v ∈ form.fields.filterMap (Field.validator? lookup form.fields)) (hname : f.name ∈ v.reportedInputs) :
    v = .single (f.binding lookup) check := by
  obtain ⟨g, hg, hvalidator⟩ := List.mem_filterMap.1 hv
  rcases Field.validator?_cases hvalidator with
    ⟨check', hrule', rfl⟩ | ⟨hnone, confirmed, rfl⟩ | ⟨hstart, limit, hlimit, rfl⟩
  · obtain rfl := form.eq_of_name_eq hcheck hf hg (List.mem_singleton.1 hname)
    rw [Option.some.inj (hrule'.symm.trans hrule)]
  · obtain rfl := form.eq_of_name_eq hcheck hf hg (List.mem_singleton.1 hname)
    cases hnone.symm.trans hrule
  · -- neither side of a range stands alone
    obtain ⟨hmem, hend⟩ := rule_of_firstOfKind? hlimit
    rcases List.mem_cons.1 hname with hname | hname
    · obtain rfl := form.eq_of_name_eq hcheck hf hg hname
      rw [hstart] at hrule
      cases hrule
    · obtain rfl := form.eq_of_name_eq hcheck hf hmem (List.mem_singleton.1 hname)
      rw [hend] at hrule
      cases hrule

end Bindings

/-! ## The statements -/

/-- **Errors shown are current.** A form that passes its check is wired over any texts and driven by any steps. If then
a field shows an error that hides it when its text changes and whose rule stands alone, the error is the field's own
message, and its rule rejects the text that its input holds. -/
theorem Form.current_of_shown {form : Form} (hcheck : form.check = .ok ()) (lookup : Int32 → String) :
    ∃ vs, form.descriptors.mapM (Validator.ofDescriptor? lookup) = some vs ∧
      ∀ (texts : List (String × String)) (steps : List Step),
        let x := (Session.start (.ofTexts texts) vs).run steps
        ∀ f ∈ form.fields, f.kind.pairing = .single → f.autoDismiss = true →
          ∀ m, x.screen.error f.name = some m →
            m = f.message.text lookup ∧
              ∃ check, f.rule.check? = some check ∧ check.accepts (x.screen.text f.name) = false := by
  refine ⟨_, mapM_ofDescriptor?_resolve lookup form.fields, fun texts steps f hf hsingle hdismiss m hm => ?_⟩
  obtain ⟨check, hrule⟩ := Option.isSome_iff_exists.1 (f.rule.isSome_check?_iff.2 hsingle)
  have hown : .single (f.binding lookup) check ∈ form.fields.filterMap (Field.validator? lookup form.fields) :=
    List.mem_filterMap.2 ⟨f, hf, Field.validator?_of_check? lookup form.fields hrule⟩
  have honly (v : Validator) (hv : v ∈ form.fields.filterMap (Field.validator? lookup form.fields))
      (hname : f.name ∈ v.reportedInputs) : v = .single (f.binding lookup) check :=
    form.eq_single_of_reported hcheck hf hrule hv hname
  obtain ⟨b, check', hmem, hname, rfl, hrejects⟩ := Session.exists_rejection_of_error
    ⟨_, hown, f.binding lookup, List.mem_cons_self, hdismiss, rfl⟩ (fun v hv hname => ⟨_, _, honly v hv hname⟩) hm
  cases honly _ hmem (List.mem_singleton.2 hname.symm)
  exact ⟨rfl, check, hrule, hrejects⟩

/-- A name that must be there, and a password of at least eight characters. -/
def enrolment : Form where
  host := "Enrolment"
  fields := [{ name := "name", rule := .required, messageText := "no name" },
    { name := "secret", rule := .password 8 "", messageResource := 7 }]
  onSuccess := "enrolled"

/-- The password was evaluated, and its error is about the text that is still there. -/
theorem current_of_enrolment :
    enrolment.check = .ok () ∧
      ∃ vs, enrolment.descriptors.mapM (Validator.ofDescriptor? fun _ => "too short") = some vs ∧
        let x := (Session.start (.ofTexts []) vs).run [.enter "secret" "hidden", .evaluate, .enter "name" "Ann"]
        x.screen.error "secret" = some "too short" ∧
          ∃ check, (Rule.password 8 "").check? = some check ∧ check.accepts (x.screen.text "secret") = false := by
  have hcheck : enrolment.check = .ok () := rfl
  obtain ⟨vs, hvs, h⟩ := Form.current_of_shown hcheck fun _ => "too short"
  have hbuilt : vs = [.single ⟨"name", "no name", true⟩ .present,
      .single ⟨"secret", "too short", true⟩ (.password 8 "")] :=
    Option.some.inj hvs.symm
  have hshown : ((Session.start (.ofTexts []) vs).run
      [.enter "secret" "hidden", .evaluate, .enter "name" "Ann"]).screen.error "secret" = some "too short" := by
    rw [hbuilt]
    decide
  have hcurrent := h [] [.enter "secret" "hidden", .evaluate, .enter "name" "Ann"] _
    (List.mem_cons_of_mem _ List.mem_cons_self) rfl rfl _ hshown
  exact ⟨hcheck, vs, hvs, hshown, hcurrent.2⟩

/-- **Inputs obey their own fields.** A form that passes its check is wired over any texts and driven by any steps.
Then the input of every field shows the field's own message or nothing; a text entered into it changes what no other
input shows, and hides its own error exactly if the field asks for that. -/
theorem Form.inputs_obey_fields {form : Form} (hcheck : form.check = .ok ()) (lookup : Int32 → String) :
    ∃ vs, form.descriptors.mapM (Validator.ofDescriptor? lookup) = some vs ∧
      ∀ (texts : List (String × String)) (steps : List Step),
        let x := (Session.start (.ofTexts texts) vs).run steps
        ∀ f ∈ form.fields,
          (x.screen.error f.name = none ∨ x.screen.error f.name = some (f.message.text lookup)) ∧
            ∀ text, let y := (x.step (.enter f.name text)).1
              (∀ other, other ≠ f.name → y.screen.error other = x.screen.error other) ∧
                y.screen.error f.name = if f.autoDismiss then none else x.screen.error f.name := by
  refine ⟨_, mapM_ofDescriptor?_resolve lookup form.fields, fun texts steps => ?_⟩
  intro x f hf
  have hbinding (v : Validator) (hv : v ∈ form.fields.filterMap (Field.validator? lookup form.fields))
      (b : Binding) (hb : b ∈ v.bindings) (hname : b.input = f.name) : b = f.binding lookup :=
    form.binding_eq hcheck hv hb hf hname
  have hothers : ∀ text other, other ≠ f.name →
      (x.screen.enter f.name text).error other = x.screen.error other := by
    intro text other hother
    rw [Screen.error_enter, if_neg fun h => hother h.1]
  cases hshown : x.screen.error f.name with
  | none =>
    refine ⟨.inl rfl, fun text => ⟨hothers text, ?_⟩⟩
    refine (Screen.error_enter x.screen f.name text f.name).trans ?_
    rw [hshown, ite_self, ite_self]
  | some m =>
    -- the binding that the message is from is the field's, so the input is watched if the field wants that
    obtain ⟨v, hv, b, hb, hname, rfl⟩ := Session.exists_binding_of_error hshown
    have hwatched : (x.screen.input f.name).dismisses = true ↔ f.autoDismiss = true := by
      rw [Session.dismisses_run]
      constructor
      · rintro ⟨v', hv', b', hb', hdismiss, hname'⟩
        rwa [hbinding v' hv' b' hb' hname'] at hdismiss
      · intro hdismiss
        refine ⟨v, hv, b, hb, ?_, hname⟩
        rwa [hbinding v hv b hb hname]
    refine ⟨.inr ?_, fun text => ⟨hothers text, ?_⟩⟩
    · rw [hbinding v hv b hb hname]
      rfl
    · refine (Screen.error_enter x.screen f.name text f.name).trans (if_congr ?_ rfl hshown)
      rw [hwatched]
      exact and_iff_right rfl

/-- A range whose start keeps its error when its text changes, and whose limit does not. -/
def booking : Form where
  host := "Booking"
  fields := [{ name := "arrival", rule := .betweenStart, messageText := "too late", autoDismiss := false },
    { name := "departure", rule := .betweenLimit, messageText := "too early" }]
  onSuccess := "booked"

/-- After an evaluation both sides of the range show their own message, and each treats a new text its own way. -/
theorem inputs_obey_booking :
    booking.check = .ok () ∧ ∃ vs, booking.descriptors.mapM (Validator.ofDescriptor? fun _ => "") = some vs ∧
      let x := (Session.start (.ofTexts [("arrival", "9"), ("departure", "4")]) vs).run [.evaluate]
      x.screen.error "arrival" = some "too late" ∧ x.screen.error "departure" = some "too early" ∧
        (x.step (.enter "arrival" "3")).1.screen.error "arrival" = some "too late" ∧
        (x.step (.enter "departure" "12")).1.screen.error "departure" = none := by
  have hcheck : booking.check = .ok () := rfl
  obtain ⟨vs, hvs, h⟩ := Form.inputs_obey_fields hcheck fun _ => ""
  have hbuilt : vs = [.between ⟨"arrival", "too late", false⟩ ⟨"departure", "too early", true⟩] :=
    Option.some.inj hvs.symm
  obtain ⟨-, harrival⟩ := h [("arrival", "9"), ("departure", "4")] [.evaluate] _ List.mem_cons_self
  obtain ⟨-, hdeparture⟩ := h [("arrival", "9"), ("departure", "4")] [.evaluate] _
    (List.mem_cons_of_mem _ List.mem_cons_self)
  have hshown : ((Session.start (.ofTexts [("arrival", "9"), ("departure", "4")]) vs).run [.evaluate]).screen.error
      "arrival" = some "too late" ∧
    ((Session.start (.ofTexts [("arrival", "9"), ("departure", "4")]) vs).run [.evaluate]).screen.error
      "departure" = some "too early" := by
    rw [hbuilt]
    decide +kernel
  exact ⟨hcheck, vs, hvs, hshown.1, hshown.2, (harrival "3").2.trans hshown.1, (hdeparture "12").2⟩

end FormWiring
