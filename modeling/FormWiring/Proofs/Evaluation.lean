import FormWiring.Proofs.History

/-!
# What one evaluation does

An evaluation gives every entry of the set one turn, in the order of insertion. In its turn an entry makes its
reports on the screen that the turns before it left. No report changes a text, so each turn goes as it would have
gone first, and the verdict, the messages and the errors shown can be read off the first screen.

Main statement: `Session.effect_of_steps`.
-/

set_option autoImplicit false

namespace FormWiring

/-! ## Turns -/

/-- **Turns of validators**, from one screen to another: each validator has one, in order, and makes its reports on
the screen that the turns before it left. The reports made are kept by turn. -/
inductive Turns : Screen → List Validator → List (List Report) → Screen → Prop
  | nil (s : Screen) : Turns s [] [] s
  | cons {s t : Screen} {v : Validator} {vs : List Validator} {made : List (List Report)}
      (rest : Turns ((v.reports s).foldl Screen.report s) vs made t) :
      Turns s (v :: vs) (v.reports s :: made) t

/-- An evaluation is a course of turns, and what each turn reports is settled by the first screen. -/
theorem turns_evaluateAll (s : Screen) (vs : List Validator) :
    Turns s vs (vs.map (Validator.reports s)) (evaluateAll s vs).1 := by
  -- the induction is on the entries, from any screen with the texts of the first one
  suffices h : ∀ t : Screen, t.SameTexts s → Turns t vs (vs.map (Validator.reports s)) (evaluateAll t vs).1 from
    h s fun _ => rfl
  induction vs with
  | nil =>
    intro t _
    exact .nil t
  | cons v vs ih =>
    intro t ht
    have hreports : v.reports t = v.reports s := Validator.reports_congr ht v
    have hafter : (v.evaluate t).SameTexts s := (Validator.sameTexts_evaluate t v).trans ht
    rw [List.map_cons, ← hreports]
    exact .cons (ih (v.evaluate t) hafter)

/-! ## Messages -/

/-- The messages of some validators are those of the failing ones, one each. -/
theorem map_some_filterMap_failure? (s : Screen) (vs : List Validator) :
    (vs.filterMap (Validator.failure? s)).map some =
      (vs.filter fun v => !v.accepts s).map (Validator.failure? s) := by
  induction vs with
  | nil => rfl
  | cons v vs ih =>
    have haccepts : (v.failure? s).isNone = v.accepts s := Validator.isNone_failure? s v
    rw [List.filterMap_cons, List.filter_cons, ← haccepts]
    cases hfailure : v.failure? s with
    | none => simpa using ih
    | some message => simpa [hfailure] using ih

theorem length_filterMap_failure? (s : Screen) (vs : List Validator) :
    (vs.filterMap (Validator.failure? s)).length = vs.countP fun v => !v.accepts s := by
  have hmap := congrArg List.length (map_some_filterMap_failure? s vs)
  rw [List.length_map, List.length_map] at hmap
  rw [hmap, List.countP_eq_length_filter]

namespace Session

/-! ## Effects -/

/-- **Effect of an evaluation** of the set of a session. -/
structure EvaluationEffect (x : Session) (out : Session × StepAnswer) : Prop where
  /-- Every entry has its turn, once and in order of insertion. -/
  turns : Turns x.screen x.set.validators (x.set.validators.map (Validator.reports x.screen)) out.1.screen
  /-- The verdict is that all entries accept. -/
  verdict : out.2 = .verdict (x.set.validators.all (Validator.accepts x.screen))
  entries : out.1.set.validators = x.set.validators
  /-- The messages are those of the failing entries, one each and in order of insertion. -/
  messages : out.1.set.errors.map some =
    (x.set.validators.filter fun v => !v.accepts x.screen).map (Validator.failure? x.screen)
  count : out.1.set.errors.length = x.set.validators.countP fun v => !v.accepts x.screen
  texts : out.1.screen.SameTexts x.screen
  /-- An input that is reported on shows what the last report made on it says. -/
  shown : ∀ name, Reported x.set.validators name →
    ∃ r, lastReport? name (x.set.validators.map (Validator.reports x.screen)).flatten = some r ∧
      out.1.screen.error name = r.shown
  kept : ∀ name, ¬ Reported x.set.validators name → out.1.screen.error name = x.screen.error name

/-- **Effect of clearing** the set of a session. -/
structure ClearingEffect (x : Session) (out : Session × StepAnswer) : Prop where
  messages : out.1.set.errors = []
  entries : out.1.set.validators = x.set.validators
  texts : out.1.screen.SameTexts x.screen
  hidden : ∀ name, Reported x.set.validators name → out.1.screen.error name = none
  kept : ∀ name, ¬ Reported x.set.validators name → out.1.screen.error name = x.screen.error name

theorem evaluationEffect_step (x : Session) : EvaluationEffect x (x.step .evaluate) where
  turns := by
    rw [step_evaluate]
    dsimp only
    rw [← evaluateAll_fst]
    exact turns_evaluateAll x.screen x.set.validators
  verdict := by rw [step_evaluate]
  entries := by rw [step_evaluate]
  messages := by
    rw [step_evaluate]
    exact map_some_filterMap_failure? x.screen x.set.validators
  count := by
    rw [step_evaluate]
    exact length_filterMap_failure? x.screen x.set.validators
  texts := text_step x .evaluate
  shown := by
    intro name hname
    have hsome := (ValidatorSet.lastReport?_isSome_iff_reported x.screen x.set.validators name).2 hname
    obtain ⟨r, hlast⟩ := Option.isSome_iff_exists.1 hsome
    refine ⟨r, ?_, ?_⟩
    · -- the reports of all turns, one turn after the other
      rw [← List.flatMap_def]
      exact hlast
    · rw [step_evaluate]
      dsimp only
      rw [Screen.error_foldl_report, hlast]
      rfl
  kept := error_step_evaluate x

theorem clearingEffect_step (x : Session) : ClearingEffect x (x.step .clear) where
  messages := rfl
  entries := rfl
  texts := text_step x .clear
  hidden := by
    intro name hname
    exact (ValidatorSet.error_clear x.set x.screen name).trans (if_pos hname)
  kept := by
    intro name hname
    exact (ValidatorSet.error_clear x.set x.screen name).trans (if_neg hname)

/-! ## Messages between evaluations -/

/-- A step that neither evaluates the set nor clears it keeps its messages. -/
theorem errors_step (x : Session) {step : Step} (hevaluate : step ≠ .evaluate) (hclear : step ≠ .clear) :
    (x.step step).1.set.errors = x.set.errors := by
  cases step with
  | enter input text => rfl
  | evaluate => exact absurd rfl hevaluate
  | clear => exact absurd rfl hclear
  | size => rfl
  | evaluateOne index => unfold Session.step; dsimp only; split <;> rfl
  | clearOne index => unfold Session.step; dsimp only; split <;> rfl
  | add index => unfold Session.step; dsimp only; split <;> rfl

/-- So do many such steps. -/
theorem errors_run (x : Session) (steps : List Step) (hevaluate : .evaluate ∉ steps) (hclear : .clear ∉ steps) :
    (x.run steps).set.errors = x.set.errors := by
  refine run_invariant (P := fun y => y.set.errors = x.set.errors) ?_ rfl
  intro y hy step hmem
  have hstep : (y.step step).1.set.errors = y.set.errors := by
    refine errors_step y ?_ ?_
    · rintro rfl
      exact hevaluate hmem
    · rintro rfl
      exact hclear hmem
  exact hstep.trans hy

/-! ## The statement -/

/-- **What the steps of a session do to its set.** An evaluation gives every entry one turn in order, answers whether
all of them accept, collects one message for each that fails, and changes nothing but the errors of reported inputs,
which show the last report made on them. Until the next evaluation or clearing no step changes the messages.
A clearing drops them and hides the error of every reported input. -/
theorem effect_of_steps (x : Session) :
    EvaluationEffect x (x.step .evaluate) ∧
      (∀ steps, .evaluate ∉ steps → .clear ∉ steps → (x.run steps).set.errors = x.set.errors) ∧
      ClearingEffect x (x.step .clear) :=
  ⟨evaluationEffect_step x, errors_run x, clearingEffect_step x⟩

end Session

end FormWiring
