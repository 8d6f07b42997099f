import FormWiring.Proofs.Reporting

/-!
# Evaluation has no memory

What an evaluation answers, collects and shows is settled by the validators and the texts. Nothing that earlier
steps left behind is read: messages are collected afresh, and every reported input is told what to show.

Main statement: `Session.evaluate_independent_of_history`.
-/

set_option autoImplicit false

namespace FormWiring

/-- **Reported inputs** of some validators. -/
def Reported (vs : List Validator) (name : String) : Prop :=
  ∃ v ∈ vs, name ∈ v.reportedInputs

namespace Session

/-! ## What steps keep -/

/-- What each of some steps keeps, all of them keep. -/
theorem run_invariant {P : Session → Prop} {steps : List Step}
    (hstep : ∀ y, P y → ∀ step ∈ steps, P (y.step step).1) {x : Session} (hx : P x) : P (x.run steps) := by
  unfold run
  induction steps generalizing x with
  | nil => exact hx
  | cons step steps ih =>
    have hfirst : P (x.step step).1 := hstep x hx step List.mem_cons_self
    exact ih (fun y hy later hlater => hstep y hy later (List.mem_cons_of_mem step hlater)) hfirst

/-- The evaluation of the set, read off the texts. -/
theorem step_evaluate (x : Session) :
    x.step .evaluate =
      ({ x with
          screen := (x.set.validators.flatMap (Validator.reports x.screen)).foldl Screen.report x.screen
          set := { x.set with errors := x.set.validators.filterMap (Validator.failure? x.screen) } },
        .verdict (x.set.validators.all (Validator.accepts x.screen))) := by
  unfold step
  rw [ValidatorSet.evaluate_eq]

/-- Only a step that adds a validator changes the validators of the set. -/
theorem validators_step (x : Session) (step : Step) (h : ∀ index, step ≠ .add index) :
    (x.step step).1.set.validators = x.set.validators := by
  cases step with
  | enter input text => rfl
  | evaluate => rw [step_evaluate]
  | clear => rfl
  | size => rfl
  | evaluateOne index => unfold Session.step; dsimp only; split <;> rfl
  | clearOne index => unfold Session.step; dsimp only; split <;> rfl
  | add index => exact absurd rfl (h index)

theorem validators_run (x : Session) (steps : List Step) (h : ∀ index, .add index ∉ steps) :
    (x.run steps).set.validators = x.set.validators := by
  refine run_invariant (P := fun y => y.set.validators = x.set.validators) ?_ rfl
  intro y hy step hmem
  have hstep : (y.step step).1.set.validators = y.set.validators :=
    validators_step y step fun index hadd => h index (hadd ▸ hmem)
  exact hstep.trans hy

/-- Only entering a text changes one, and only that of its input. -/
theorem text_step (x : Session) (step : Step) (name : String) :
    (x.step step).1.screen.text name =
      match step with
      | .enter input text => if name = input then text else x.screen.text name
      | _ => x.screen.text name := by
  cases step with
  | enter input text => exact Screen.text_enter x.screen input text name
  | evaluate => rw [step_evaluate]; exact Screen.text_foldl_report _ x.screen name
  | clear => exact ValidatorSet.text_clear x.set x.screen name
  | size => rfl
  | evaluateOne index =>
    unfold Session.step
    dsimp only
    split
    · next v _ => exact Validator.sameTexts_evaluate x.screen v name
    · rfl
  | clearOne index =>
    unfold Session.step
    dsimp only
    split
    · next v _ => exact ValidatorSet.text_foldl_hide v.bindings x.screen name
    · rfl
  | add index => unfold Session.step; dsimp only; split <;> rfl

/-! ## Outcomes -/

/-- **Same outcome** of two evaluations: the answer, the messages kept, and what the inputs of interest show. -/
structure SameOutcome (ofInterest : String → Prop) (a b : Session × StepAnswer) : Prop where
  answer : a.2 = b.2
  errors : a.1.set.errors = b.1.set.errors
  shown : ∀ name, ofInterest name → a.1.screen.error name = b.1.screen.error name

variable {x y : Session}

/-- Two evaluations of the same validators on the same texts differ at most on inputs that nobody reports on. -/
theorem sameOutcome_evaluate (hvs : x.set.validators = y.set.validators)
    (ht : x.screen.SameTexts y.screen) (ofInterest : String → Prop)
    (h : ∀ name, ofInterest name → ¬ Reported x.set.validators name →
      x.screen.error name = y.screen.error name) :
    SameOutcome ofInterest (x.step .evaluate) (y.step .evaluate) := by
  have haccepts : Validator.accepts x.screen = Validator.accepts y.screen :=
    funext fun v => Validator.accepts_congr ht v
  have hfailure : Validator.failure? x.screen = Validator.failure? y.screen :=
    funext fun v => Validator.failure?_congr ht v
  have hreports : Validator.reports x.screen = Validator.reports y.screen :=
    funext fun v => Validator.reports_congr ht v
  rw [step_evaluate, step_evaluate, ← hvs, ← haccepts, ← hfailure, ← hreports]
  refine ⟨rfl, rfl, fun name hname => ?_⟩
  dsimp only
  rw [Screen.error_foldl_report, Screen.error_foldl_report]
  by_cases hr : Reported x.set.validators name
  · obtain ⟨r, hlast⟩ := Option.isSome_iff_exists.1
      ((ValidatorSet.lastReport?_isSome_iff_reported x.screen x.set.validators name).2 hr)
    rw [hlast]
    rfl
  · rw [h name hname hr]

/-- An evaluation leaves inputs alone that nobody reports on. -/
theorem error_step_evaluate (x : Session) (name : String) (h : ¬ Reported x.set.validators name) :
    (x.step .evaluate).1.screen.error name = x.screen.error name := by
  rw [step_evaluate]
  dsimp only
  rw [Screen.error_foldl_report]
  cases hlast : lastReport? name (x.set.validators.flatMap (Validator.reports x.screen)) with
  | none => rfl
  | some r =>
    refine absurd ?_ h
    rw [Reported, ← ValidatorSet.lastReport?_isSome_iff_reported x.screen, hlast]
    rfl

/-- Evaluating once more changes nothing. -/
theorem sameOutcome_evaluate_twice (x : Session) :
    SameOutcome (fun _ => True) (x.step .evaluate) ((x.step .evaluate).1.step .evaluate) := by
  refine sameOutcome_evaluate ?_ ?_ _ fun name _ hname => (error_step_evaluate x name hname).symm
  · rw [validators_step x .evaluate (by simp)]
  · exact fun name => (text_step x .evaluate name).symm

/-- Clearing between two evaluations changes nothing. -/
theorem sameOutcome_evaluate_clear (x : Session) :
    SameOutcome (fun _ => True) (x.step .evaluate)
      (((x.step .evaluate).1.step .clear).1.step .evaluate) := by
  have hvs : (x.step .evaluate).1.set.validators = x.set.validators :=
    validators_step x .evaluate (by simp)
  refine sameOutcome_evaluate ?_ ?_ _ fun name _ hname => ?_
  · rw [validators_step _ .clear (by simp), hvs]
  · intro name
    rw [text_step, text_step]
  · have hclear : ((x.step .evaluate).1.step .clear).1.screen.error name =
        (x.step .evaluate).1.screen.error name := by
      refine (ValidatorSet.error_clear _ _ name).trans (if_neg ?_)
      rw [hvs]
      exact hname
    rw [hclear, error_step_evaluate x name hname]

/-! ## The statement -/

/-- **Evaluation has no memory.** Sessions over the same validators, each driven from any screen by any steps that
add no validator, agree in their next evaluation as soon as their texts agree: same verdict, same messages, and the
same error shown on every reported input. Evaluating again, at once or after clearing, changes nothing at all. -/
theorem evaluate_independent_of_history (s t : Screen) (vs : List Validator) (first second : List Step)
    (hfirst : ∀ index, .add index ∉ first) (hsecond : ∀ index, .add index ∉ second)
    (htexts : ((start s vs).run first).screen.SameTexts ((start t vs).run second).screen) :
    let a := ((start s vs).run first).step .evaluate
    let b := ((start t vs).run second).step .evaluate
    SameOutcome (Reported vs) a b ∧
      SameOutcome (fun _ => True) a (a.1.step .evaluate) ∧
      SameOutcome (fun _ => True) a ((a.1.step .clear).1.step .evaluate) := by
  have hx : ((start s vs).run first).set.validators = vs := validators_run _ first hfirst
  have hy : ((start t vs).run second).set.validators = vs := validators_run _ second hsecond
  refine ⟨?_, sameOutcome_evaluate_twice _, sameOutcome_evaluate_clear _⟩
  refine sameOutcome_evaluate (hx.trans hy.symm) htexts _ fun name hname hnot => ?_
  rw [hx] at hnot
  exact absurd hname hnot

/-- A detour over other texts, an evaluation and a clearing ends like the straight way to the same texts. -/
theorem evaluate_after_detour :
    (∀ index, Step.add index ∉
        [.enter "email" "a", .evaluate, .enter "email" "", .clearOne 1, .enter "again" "b", .clear]) ∧
      (∀ index, Step.add index ∉ [.enter "again" "b"]) ∧
      SameOutcome
        (Reported [.single ⟨"email", "missing", true⟩ .present,
          .confirmation "email" ⟨"again", "differs", false⟩])
        (((start {} [.single ⟨"email", "missing", true⟩ .present,
            .confirmation "email" ⟨"again", "differs", false⟩]).run
          [.enter "email" "a", .evaluate, .enter "email" "", .clearOne 1, .enter "again" "b", .clear]).step
            .evaluate)
        (((start {} [.single ⟨"email", "missing", true⟩ .present,
            .confirmation "email" ⟨"again", "differs", false⟩]).run [.enter "again" "b"]).step .evaluate) := by
  refine ⟨by simp, by simp, ?_⟩
  refine (evaluate_independent_of_history {} {} _ _ _ (by simp) (by simp) fun name => ?_).1
  simp only [run, List.foldl_cons, List.foldl_nil, text_step]
  by_cases hagain : name = "again"
  · rw [if_pos hagain, if_pos hagain]
  · rw [if_neg hagain, if_neg hagain]
    by_cases hemail : name = "email"
    · rw [if_pos hemail, hemail]
      rfl
    · rw [if_neg hemail, if_neg hemail]

end Session

end FormWiring
