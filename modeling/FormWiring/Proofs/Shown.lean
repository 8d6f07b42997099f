import FormWiring.Proofs.FieldReports
import FormWiring.Proofs.History

/-!
# Which inputs show an error

After an evaluation of a form an input shows an error only if some validator finds fault with it. The converse holds
of every input but one. An input has the report of its own field only, so it shows what that one says; the first
limit, however, is reported on by every start, and a later start that is content hides what an earlier one found.

Main statement: `Form.shown_iff_findsFault_iff`.
-/

set_option autoImplicit false

namespace FormWiring

/-! ## Inputs nobody reports on -/

namespace Screen

/-- A screen with given texts shows no error. -/
theorem error_ofTexts (texts : List (String × String)) (name : String) :
    (ofTexts texts).error name = none := by
  unfold ofTexts
  refine (apply_foldl (fun s => s.error name) _ ?_ texts {}).trans rfl
  intro s a
  exact apply_input_update Input.error (fun i => { i with text := a.2 }) (fun _ => rfl) s a.1 name

/-- Binding validators to a screen keeps every error. -/
theorem error_attachAll (vs : List Validator) (s : Screen) (name : String) :
    (s.attachAll vs).error name = s.error name := by
  rw [attachAll_eq]
  refine apply_foldl (fun s => s.error name) heed ?_ (vs.flatMap Validator.bindings) s
  intro s b
  unfold heed
  by_cases h : b.autoDismiss = true
  · rw [if_pos h]
    exact apply_input_update Input.error (fun i => { i with dismisses := true }) (fun _ => rfl) s b.input name
  · rw [if_neg h]

/-- A validator that is evaluated leaves the inputs alone that it does not report on. -/
theorem error_evaluate_of_not_mem (s : Screen) (v : Validator) {name : String} (h : name ∉ v.reportedInputs) :
    (v.evaluate s).error name = s.error name := by
  unfold Validator.evaluate
  rw [error_foldl_report]
  cases hlast : lastReport? name (v.reports s) with
  | none => rfl
  | some r =>
    obtain ⟨r, hr, hon⟩ := (lastReport?_isSome_iff name (v.reports s)).1 (by rw [hlast]; rfl)
    refine absurd ?_ h
    unfold Validator.reportedInputs
    rw [← Validator.map_binding_reports s v, List.map_map]
    exact List.mem_map.2 ⟨r, hr, hon⟩

end Screen

namespace Session

/-- **Tidy session**: the set holds validators that were built, and an input that none of these reports on shows no
error. -/
structure Tidy (x : Session) : Prop where
  built : ∀ v ∈ x.set.validators, v ∈ x.built
  silent : ∀ name, ¬ Reported x.built name → x.screen.error name = none

/-- A session over texts just entered is tidy. -/
theorem tidy_start (texts : List (String × String)) (vs : List Validator) :
    Tidy (start (.ofTexts texts) vs) where
  built := fun _ hv => hv
  silent := by
    intro name _
    exact (Screen.error_attachAll vs _ name).trans (Screen.error_ofTexts texts name)

/-- No step builds a validator. -/
theorem built_step (x : Session) (step : Step) : (x.step step).1.built = x.built := by
  cases step with
  | enter input text => rfl
  | evaluate => rw [step_evaluate]
  | clear => rfl
  | size => rfl
  | evaluateOne index => unfold Session.step; dsimp only; split <;> rfl
  | clearOne index => unfold Session.step; dsimp only; split <;> rfl
  | add index => unfold Session.step; dsimp only; split <;> rfl

/-- Every step keeps a session tidy. -/
theorem Tidy.step {x : Session} (h : Tidy x) (step : Step) : Tidy (x.step step).1 := by
  have hset : ∀ name, ¬ Reported x.built name → ¬ Reported x.set.validators name := by
    rintro name hname ⟨v, hv, hreported⟩
    exact hname ⟨v, h.built v hv, hreported⟩
  -- a step that keeps the set is tidy if it keeps the inputs silent that were
  have hkept : (x.step step).1.set.validators = x.set.validators →
      (∀ name, ¬ Reported x.built name → (x.step step).1.screen.error name = none) → Tidy (x.step step).1 := by
    intro hvalidators hsilent
    refine ⟨?_, ?_⟩
    · rw [hvalidators, built_step]
      exact h.built
    · rw [built_step]
      exact hsilent
  cases step with
  | enter input text =>
    -- a text that is entered can only hide an error
    refine hkept rfl fun name hname => ?_
    refine (Screen.error_enter x.screen input text name).trans ?_
    rw [h.silent name hname, ite_self]
  | evaluate =>
    refine hkept (validators_step x .evaluate (by simp)) fun name hname => ?_
    rw [error_step_evaluate x name (hset name hname), h.silent name hname]
  | clear =>
    refine hkept rfl fun name hname => ?_
    refine (ValidatorSet.error_clear x.set x.screen name).trans ?_
    rw [h.silent name hname, ite_self]
  | size => exact hkept rfl h.silent
  | evaluateOne index =>
    refine hkept (validators_step x _ (by simp)) fun name hname => ?_
    unfold Session.step
    dsimp only
    split
    · next v hv =>
      have hnot : name ∉ v.reportedInputs := fun hmem => hname ⟨v, List.mem_of_getElem? hv, hmem⟩
      exact (Screen.error_evaluate_of_not_mem x.screen v hnot).trans (h.silent name hname)
    · exact h.silent name hname
  | clearOne index =>
    refine hkept (validators_step x _ (by simp)) fun name hname => ?_
    unfold Session.step
    dsimp only
    split
    · next v _ =>
      refine (ValidatorSet.error_foldl_hide v.bindings x.screen name).trans ?_
      rw [h.silent name hname, ite_self]
    · exact h.silent name hname
  | add index =>
    unfold Session.step
    dsimp only
    split
    · next v hv =>
      -- the one step that changes the set, by a validator that was built
      refine ⟨fun other hother => ?_, h.silent⟩
      rcases List.mem_append.1 hother with hold | hnew
      · exact h.built other hold
      · rw [List.mem_singleton.1 hnew]
        exact List.mem_of_getElem? hv
    · exact h

/-- So do many steps. -/
theorem Tidy.run {x : Session} (h : Tidy x) (steps : List Step) : Tidy (x.run steps) :=
  run_invariant (fun _ hy step _ => hy.step step) h

theorem built_run (x : Session) (steps : List Step) : (x.run steps).built = x.built := by
  refine run_invariant (P := fun y => y.built = x.built) ?_ rfl
  intro y hy step _
  exact (built_step y step).trans hy

/-- After an evaluation of all validators built, an input shows an error exactly when its last report is a refusal. -/
theorem Tidy.isSome_error_evaluate {x : Session} (h : Tidy x) (hall : x.set.validators = x.built) (name : String) :
    ((x.step .evaluate).1.screen.error name).isSome = true ↔
      ∃ r, lastReport? name (x.set.validators.flatMap (Validator.reports x.screen)) = some r ∧
        r.accepted = false := by
  rw [step_evaluate]
  dsimp only
  rw [Screen.error_foldl_report]
  cases hlast : lastReport? name (x.set.validators.flatMap (Validator.reports x.screen)) with
  | some r => simpa using isSome_shown r
  | none =>
    -- without a report the error is the one before the evaluation, and there was none
    have hsilent : x.screen.error name = none := by
      refine h.silent name fun hname => ?_
      rw [← hall] at hname
      have hsome := (ValidatorSet.lastReport?_isSome_iff_reported x.screen x.set.validators name).2 hname
      rw [hlast] at hsome
      cases hsome
    simp [hsilent]

/-- **Input that shows its faults** in the next evaluation: it then shows an error exactly when some validator of the
set finds fault with it. -/
def ShowsFaults (x : Session) (name : String) : Prop :=
  ((x.step .evaluate).1.screen.error name).isSome = true ↔
    ∃ v ∈ x.set.validators, v.FindsFault x.screen.text name

end Session

/-! ## The statement -/

/-- **Which inputs show their faults.** A form that passes its check is wired over any texts and driven by any steps
that add no validator. When it is evaluated then, an input shows an error only if some validator finds fault with it,
and the converse holds of every input but the first limit. It holds of all inputs exactly when the limit is not
masked. -/
theorem Form.shown_iff_findsFault_iff {form : Form} (hcheck : form.check = .ok ()) (lookup : Int32 → String) :
    ∃ vs, form.descriptors.mapM (Validator.ofDescriptor? lookup) = some vs ∧
      ∀ (texts : List (String × String)) (steps : List Step), (∀ index, .add index ∉ steps) →
        let x := (Session.start (.ofTexts texts) vs).run steps
        x.set.validators = vs ∧
          (∀ name, ((x.step .evaluate).1.screen.error name).isSome = true →
            ∃ v ∈ vs, v.FindsFault x.screen.text name) ∧
          (∀ name, (∀ limit, firstOfKind? form.fields .betweenLimit = some limit → limit.name ≠ name) →
            x.ShowsFaults name) ∧
          ((∀ name, x.ShowsFaults name) ↔ ¬ MasksLimit form.fields x.screen.text) := by
  refine ⟨_, mapM_ofDescriptor?_resolve lookup form.fields, fun texts steps hsteps => ?_⟩
  intro x
  set vs := form.fields.filterMap (Field.validator? lookup form.fields) with hvs
  have hset : x.set.validators = vs := Session.validators_run _ steps hsteps
  have htidy : x.Tidy := (Session.tidy_start texts vs).run steps
  have hbuilt : x.built = vs := Session.built_run (Session.start (.ofTexts texts) vs) steps
  -- the reports of the set are those made for the fields, so the facts about forms apply
  have hreports : x.set.validators.flatMap (Validator.reports x.screen) =
      form.fields.flatMap (Field.reportsFor lookup form.fields x.screen) := by
    rw [hset, hvs, Field.flatMap_reports]
  have hshown : ∀ name, ((x.step .evaluate).1.screen.error name).isSome = true ↔
      ∃ r, lastReport? name (form.fields.flatMap (Field.reportsFor lookup form.fields x.screen)) = some r ∧
        r.accepted = false := by
    intro name
    rw [htidy.isSome_error_evaluate (hset.trans hbuilt.symm), hreports]
  have hfault : ∀ name, (∃ v ∈ x.set.validators, v.FindsFault x.screen.text name) ↔
      ∃ r ∈ form.fields.flatMap (Field.reportsFor lookup form.fields x.screen),
        r.binding.input = name ∧ r.accepted = false := by
    intro name
    rw [← hreports]
    exact Validator.exists_findsFault_iff x.screen x.set.validators name
  have honly : ∀ name, ((x.step .evaluate).1.screen.error name).isSome = true →
      ∃ v ∈ x.set.validators, v.FindsFault x.screen.text name := by
    intro name hname
    obtain ⟨r, hlast, hrefused⟩ := (hshown name).1 hname
    exact (hfault name).2 (exists_refusal_of_lastReport? hlast hrefused)
  refine ⟨hset, hset ▸ honly, fun name hname => ⟨honly name, fun hfound => ?_⟩, ?_⟩
  · exact (hshown name).2 (lastReport?_refused_of_ne hcheck lookup x.screen hname ((hfault name).1 hfound))
  · rw [← forall_lastReport?_refused_iff hcheck lookup x.screen]
    refine forall_congr' fun name => ?_
    rw [← hshown, ← hfault]
    exact ⟨fun h => h.2, fun h => ⟨honly name, h⟩⟩

/-- A range with two starts. -/
def spans : Form where
  host := "Spans"
  fields := [{ name := "from", rule := .betweenStart, messageText := "bad from" },
    { name := "to", rule := .betweenLimit, messageText := "bad to" },
    { name := "other", rule := .betweenStart, messageText := "bad other" }]
  onSuccess := "on_valid"

/-- The second start is in range and hides that the first one exceeds the limit. -/
theorem not_showsFaults_spans :
    spans.check = .ok () ∧ ∃ vs, spans.descriptors.mapM (Validator.ofDescriptor? fun _ => "") = some vs ∧
      (∀ index, Step.add index ∉ []) ∧
      ¬ ∀ name, ((Session.start (.ofTexts [("from", "10"), ("to", "5"), ("other", "1")]) vs).run []).ShowsFaults
        name := by
  have hcheck : spans.check = .ok () := rfl
  obtain ⟨vs, hvs, h⟩ := Form.shown_iff_findsFault_iff hcheck fun _ => ""
  have hsteps : ∀ index, Step.add index ∉ [] := fun _ => List.not_mem_nil
  have hmasks : MasksLimit spans.fields
      ((Session.start (.ofTexts [("from", "10"), ("to", "5"), ("other", "1")]) vs).run []).screen.text := by
    have htext : ((Session.start (.ofTexts [("from", "10"), ("to", "5"), ("other", "1")]) vs).run []).screen.text =
        (Screen.ofTexts [("from", "10"), ("to", "5"), ("other", "1")]).text :=
      funext fun name => Screen.text_attachAll vs _ name
    rw [htext]
    exact ⟨_, _, rfl, rfl, by decide +kernel, _, List.mem_cons_self, by decide +kernel⟩
  exact ⟨hcheck, vs, hvs, hsteps, fun hshows =>
    (h [("from", "10"), ("to", "5"), ("other", "1")] [] hsteps).2.2.2.1 hshows hmasks⟩

end FormWiring
