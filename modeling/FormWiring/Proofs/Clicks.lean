import FormWiring.Proofs.History
import FormWiring.Proofs.Meaning
import FormWiring.Proofs.Wiring

/-!
# What clicks do

A unit that was wired keeps its handlers, its validators and the inputs it watches, whatever happens afterwards. From
this alone every click has one answer: the validating handler evaluates once and calls back once, and does nothing
when the host is gone; the clearing handler clears, with the host or without.

Main statement: `clicks_of_compile`.
-/

set_option autoImplicit false

namespace FormWiring.Execution

open WiringUnit

/-! ## Events -/

/-- **Events** from outside. -/
inductive Event where
  | enter (input text : String)
  | click (e : Element)
  | dropHost
  deriving DecidableEq, Repr

/-- **World after an event**, unless a handler gets stuck. -/
def World.act? (unit : WiringUnit) (lookup : Int32 → String) (w : World) : Event → Option World
  | .enter input text => some (w.enter input text)
  | .click e => (w.click? unit lookup e).map (·.2)
  | .dropHost => some w.dropHost

/-- **World after events** in order. -/
def World.run? (unit : WiringUnit) (lookup : Int32 → String) (w : World) (events : List Event) : Option World :=
  events.foldlM (World.act? unit lookup) w

/-! ## Answers to events -/

/-- **Calls that answer a verdict**: one, or none on failure when no error callback is declared. -/
def reactions (form : Form) (valid : Bool) (errors : List String) : List Call :=
  if valid then [⟨form.onSuccess, none⟩]
  else
    match form.onError with
    | none => []
    | some ⟨method, .bare⟩ => [⟨method, none⟩]
    | some ⟨method, .withErrors⟩ => [⟨method, some errors⟩]

/-- **Dismissing** validators: one of them wants the error of the input hidden when its text changes. -/
def Dismissing (vs : List Validator) (name : String) : Prop :=
  ∃ v ∈ vs, ∃ b ∈ v.bindings, b.autoDismiss = true ∧ b.input = name

/-- **Answer to the validating click** while the host lives. Every validator reports once on the texts found, one
evaluation is logged, and the call made carries the errors of this evaluation. -/
structure Validated (form : Form) (vs : List Validator) (w w' : World) : Prop where
  screen : w'.screen = (vs.flatMap (Validator.reports w.screen)).foldl Screen.report w.screen
  errors : w'.set.errors = vs.filterMap (Validator.failure? w.screen)
  log : w'.log = w.log ++
    [.evaluated vs.length (vs.all (Validator.accepts w.screen)) (vs.filterMap (Validator.failure? w.screen)).length]
  calls : w'.calls = w.calls ++
    reactions form (vs.all (Validator.accepts w.screen)) (vs.filterMap (Validator.failure? w.screen))

/-- **Answer to the clearing click.** Reported inputs show nothing, and nobody is called. -/
structure Cleared (vs : List Validator) (w w' : World) : Prop where
  texts : w'.screen.SameTexts w.screen
  hidden : ∀ name, Reported vs name → w'.screen.error name = none
  kept : ∀ name, ¬ Reported vs name → w'.screen.error name = w.screen.error name
  errors : w'.set.errors = []
  log : w'.log = w.log
  calls : w'.calls = w.calls

/-- **Answer to a text** that is entered. Its input hides its error if a validator wants that, or if it did so on the
screen `s` already; the others go on showing what they did. -/
structure Entered (vs : List Validator) (s : Screen) (input text : String) (w w' : World) : Prop where
  texts : ∀ name, w'.screen.text name = if name = input then text else w.screen.text name
  hidden : Dismissing vs input ∨ (s.input input).dismisses = true → w'.screen.error input = none
  kept : ∀ name, ¬ (name = input ∧ (Dismissing vs name ∨ (s.input name).dismisses = true)) →
    w'.screen.error name = w.screen.error name
  errors : w'.set.errors = w.set.errors
  log : w'.log = w.log
  calls : w'.calls = w.calls

/-- **Answers to events** of a unit wired over the screen `s`. Elements that are no action do nothing. -/
def Answers (form : Form) (vs : List Validator) (s : Screen) (w w' : World) : Event → Prop
  | .enter input text => Entered vs s input text w w'
  | .click e =>
    (form.validateAction.map Element.member = some e →
      (w.hostAlive = true → Validated form vs w w') ∧ (w.hostAlive = false → w' = w)) ∧
    (form.clearAction.map Element.member = some e → Cleared vs w w') ∧
    (form.validateAction.map Element.member ≠ some e → form.clearAction.map Element.member ≠ some e → w' = w)
  | .dropHost => w' = w.dropHost

/-! ## Handlers found -/

theorem handler?_install (w : World) (e e' : Element) (h : Handler) :
    (w.install e h).handler? e' = if e' = e then some h else w.handler? e' := by
  unfold World.install World.handler?
  by_cases heq : e' = e
  · subst heq
    simp
  · rw [if_neg heq, List.lookup_cons, beq_eq_false_iff_ne.2 heq]
    dsimp only
    induction w.handlers with
    | nil => rfl
    | cons entry entries ih =>
      obtain ⟨other, installed⟩ := entry
      by_cases hother : other = e
      · subst hother
        simpa [List.lookup_cons, beq_eq_false_iff_ne.2 heq] using ih
      · by_cases hfound : e' = other
        · subst hfound
          simp [hother]
        · simpa [hother, List.lookup_cons, beq_eq_false_iff_ne.2 hfound] using ih

theorem handler?_installOn (w : World) (member : Option String) (h : Handler) (e : Element) :
    (w.installOn member h).handler? e =
      if member.map Element.member = some e then some h else w.handler? e := by
  cases member with
  | none => rfl
  | some name =>
    unfold World.installOn
    rw [handler?_install]
    exact if_congr (by simp [eq_comm]) rfl rfl

/-! ## Handlers run -/

section Running

variable (c : Context) (form : Form)

/-- **World after an evaluation** of the set. -/
def World.evaluated (w : World) : World :=
  { w with
    screen := (w.set.evaluate w.screen).2.1
    set := (w.set.evaluate w.screen).2.2
    log := w.log ++ [(w.set.evaluate w.screen).2.2.evaluationLog (w.set.evaluate w.screen).1] }

/-- **World after the host was called.** -/
def World.called (w : World) (calls : List Call) : World :=
  { w with calls := w.calls ++ calls }

theorem evalExpr_isValid {scope : Scope} (hset : scope.lookup setName = some .set) (w : World) :
    evalExpr c scope (.method setVar "is_valid" []) w =
      some (.bool (w.set.evaluate w.screen).1, w.evaluated) :=
  evalExpr_method (evalExpr_setVar hset w) (evalExprs_nil w)

theorem evalExpr_callBack {scope : Scope} (htarget : scope.lookup targetName = some .host) (method : String)
    (w : World) :
    evalExpr c scope (.method targetVar method []) w = some (.nothing, w.called [⟨method, none⟩]) :=
  evalExpr_method (evalExpr_targetVar htarget w) (evalExprs_nil w)

theorem evalExpr_callBackWithErrors {scope : Scope} (hset : scope.lookup setName = some .set)
    (htarget : scope.lookup targetName = some .host) (method : String) (w : World) :
    evalExpr c scope (.method targetVar method [.ref (.method setVar "errors" [])]) w =
      some (.nothing, w.called [⟨method, some w.set.errors⟩]) := by
  have herrors : evalExpr c scope (.ref (.method setVar "errors" [])) w = some (.texts w.set.errors, w) :=
    evalExpr_ref (evalExpr_method (evalExpr_setVar hset w) (evalExprs_nil w))
  exact evalExpr_method (evalExpr_targetVar htarget w) (evalExprs_singleton herrors)

/-- The two branches of the validating handler make the calls that answer the verdict. -/
theorem runBlock_reaction {scope : Scope} (hset : scope.lookup setName = some .set)
    (htarget : scope.lookup targetName = some .host) (valid : Bool) (w : World) :
    runBlock c scope (if valid then [.eval (.method targetVar form.onSuccess [])] else errorReaction form) w =
      some (.nothing, w.called (reactions form valid w.set.errors)) := by
  cases valid with
  | true => exact runBlock_singleton (runStmt_eval (evalExpr_callBack c htarget form.onSuccess w))
  | false =>
    unfold errorReaction reactions
    rw [if_neg Bool.false_ne_true, if_neg Bool.false_ne_true]
    match form.onError with
    | none =>
      refine runBlock_nil.trans ?_
      simp [World.called]
    | some ⟨method, .bare⟩ => exact runBlock_singleton (runStmt_eval (evalExpr_callBack c htarget method w))
    | some ⟨method, .withErrors⟩ =>
      exact runBlock_singleton (runStmt_eval (evalExpr_callBackWithErrors c hset htarget method w))

/-- **Validating handler**: one evaluation, then the calls that answer its verdict. -/
theorem runBlock_validateHandler (w : World) :
    runBlock c (World.handlerScope (validateHandler form)) (validateHandler form).body w =
      some (.nothing, w.evaluated.called
        (reactions form (w.set.evaluate w.screen).1 (w.set.evaluate w.screen).2.2.errors)) :=
  runBlock_singleton (runStmt_cond (evalExpr_isValid c rfl w) (runBlock_reaction c form rfl rfl _ w.evaluated))

/-- **World after the set was cleared.** -/
def World.cleared (w : World) : World :=
  { w with screen := (w.set.clear w.screen).1, set := (w.set.clear w.screen).2 }

/-- **Clearing handler**: the set is cleared, and that is all. -/
theorem runBlock_clearHandler (w : World) :
    runBlock c (World.handlerScope clearHandler) clearHandler.body w = some (.nothing, w.cleared) :=
  runBlock_singleton (runStmt_eval (evalExpr_method (evalExpr_setVar rfl w) (evalExprs_nil w)))

/-! ### Clicks on handlers -/

variable {form} (unit : WiringUnit) (lookup : Int32 → String) {w : World} {e : Element}

/-- A click on the validating handler, on a live host. -/
theorem click_validateHandler (hfound : w.handler? e = some (validateHandler form)) (halive : w.hostAlive = true) :
    w.click? unit lookup e = some (true, w.evaluated.called
      (reactions form (w.set.evaluate w.screen).1 (w.set.evaluate w.screen).2.2.errors)) := by
  unfold World.click?
  rw [hfound]
  dsimp only
  rw [halive, Bool.not_true, Bool.and_false, if_neg Bool.false_ne_true]
  exact congrArg (Option.map _) (runBlock_validateHandler _ form w)

/-- A click on the validating handler does nothing once the host is gone. -/
theorem click_validateHandler_dropped (hfound : w.handler? e = some (validateHandler form))
    (hdropped : w.hostAlive = false) : w.click? unit lookup e = some (true, w) := by
  unfold World.click?
  rw [hfound]
  dsimp only
  rw [hdropped]
  rfl

/-- A click on the clearing handler, host or no host. -/
theorem click_clearHandler (hfound : w.handler? e = some clearHandler) :
    w.click? unit lookup e = some (true, w.cleared) := by
  unfold World.click?
  rw [hfound]
  dsimp only
  rw [show clearHandler.capturesTarget = false from rfl, Bool.false_and, if_neg Bool.false_ne_true]
  exact congrArg (Option.map _) (runBlock_clearHandler _ w)

/-- A click on an element without a handler. -/
theorem click_of_handler?_eq_none (hfound : w.handler? e = none) : w.click? unit lookup e = some (false, w) := by
  unfold World.click?
  rw [hfound]

end Running

/-! ## Wired worlds -/

/-- **Wired world** of a form over the screen `s`: the validators are in the set, the actions have their handlers and
nothing else has one, and the inputs whose error is to be dismissed are watched. -/
structure Wired (form : Form) (vs : List Validator) (s : Screen) (w : World) : Prop where
  validators : w.set.validators = vs
  handler : ∀ e, w.handler? e =
    if form.clearAction.map Element.member = some e then some clearHandler
    else if form.validateAction.map Element.member = some e then some (validateHandler form)
    else none
  watched : ∀ name, (w.screen.input name).dismisses = true ↔
    Dismissing vs name ∨ (s.input name).dismisses = true

section Steps

variable {form : Form} {vs : List Validator} {s : Screen} {w w' : World}

/-- The entry point leaves a wired world. -/
theorem wired_wired (form : Form) (vs : List Validator) (s : Screen) :
    Wired form vs s (World.wired form vs { screen := s }) := by
  have hset : ∀ (v : World) (member : Option String) (h : Handler), (v.installOn member h).set = v.set := by
    intro v member h
    cases member <;> rfl
  have hscreen : ∀ (v : World) (member : Option String) (h : Handler),
      (v.installOn member h).screen = v.screen := by
    intro v member h
    cases member <;> rfl
  unfold World.wired
  constructor
  · rw [hset, hset]
  · intro e
    rw [handler?_installOn, handler?_installOn]
    rfl
  · intro name
    rw [hscreen, hscreen]
    exact Screen.dismisses_attachAll vs s name

/-- A world is wired still if validators, handlers and watched inputs are untouched. -/
theorem Wired.of_same (h : Wired form vs s w) (hvalidators : w'.set.validators = w.set.validators)
    (hhandlers : w'.handlers = w.handlers)
    (hwatched : ∀ name, (w'.screen.input name).dismisses = (w.screen.input name).dismisses) :
    Wired form vs s w' where
  validators := hvalidators.trans h.validators
  handler e := by
    rw [← h.handler e]
    unfold World.handler?
    rw [hhandlers]
  watched name := by
    rw [hwatched]
    exact h.watched name

theorem Wired.enter (h : Wired form vs s w) (input text : String) : Wired form vs s (w.enter input text) :=
  h.of_same rfl rfl (Screen.dismisses_enter w.screen input text)

theorem Wired.evaluated (h : Wired form vs s w) : Wired form vs s w.evaluated := by
  refine h.of_same ?_ rfl ?_
  · unfold World.evaluated
    rw [ValidatorSet.evaluate_eq]
  · intro name
    unfold World.evaluated
    rw [ValidatorSet.evaluate_eq]
    exact Screen.dismisses_foldl_report _ _ name

theorem Wired.cleared (h : Wired form vs s w) : Wired form vs s w.cleared :=
  h.of_same rfl rfl (ValidatorSet.dismisses_clear w.set w.screen)

/-- A text that is entered shows and hides what it should. -/
theorem Wired.entered (h : Wired form vs s w) (input text : String) :
    Entered vs s input text w (w.enter input text) where
  texts := Screen.text_enter w.screen input text
  hidden hwanted := by
    change (w.screen.enter input text).error input = none
    rw [Screen.error_enter, if_pos ⟨rfl, (h.watched input).2 hwanted⟩]
  kept name hother := by
    change (w.screen.enter input text).error name = w.screen.error name
    rw [Screen.error_enter, if_neg]
    rintro ⟨rfl, hwatched⟩
    exact hother ⟨rfl, (h.watched name).1 hwatched⟩
  errors := rfl
  log := rfl
  calls := rfl

/-- The validating handler evaluates once and makes the calls that answer the verdict. -/
theorem Wired.validated (h : Wired form vs s w) :
    Validated form vs w (w.evaluated.called
      (reactions form (w.set.evaluate w.screen).1 (w.set.evaluate w.screen).2.2.errors)) := by
  have heval := ValidatorSet.evaluate_eq w.set w.screen
  rw [h.validators] at heval
  constructor
  · change (w.set.evaluate w.screen).2.1 = _
    rw [heval]
  · change (w.set.evaluate w.screen).2.2.errors = _
    rw [heval]
  · change w.log ++ [(w.set.evaluate w.screen).2.2.evaluationLog (w.set.evaluate w.screen).1] = _
    rw [heval]
    rfl
  · change w.calls ++ reactions form (w.set.evaluate w.screen).1 (w.set.evaluate w.screen).2.2.errors = _
    rw [heval]

/-- The clearing handler hides what is reported on, and calls nobody. -/
theorem Wired.clears (h : Wired form vs s w) : Cleared vs w w.cleared where
  texts := ValidatorSet.text_clear w.set w.screen
  hidden name hname := by
    change (w.set.clear w.screen).1.error name = none
    rw [ValidatorSet.error_clear, h.validators]
    exact if_pos hname
  kept name hname := by
    change (w.set.clear w.screen).1.error name = w.screen.error name
    rw [ValidatorSet.error_clear, h.validators]
    exact if_neg hname
  errors := rfl
  log := rfl
  calls := rfl

variable (unit : WiringUnit) (lookup : Int32 → String)

/-- A click on the validating action, on a live host. -/
theorem Wired.click_validate (h : Wired form vs s w) {e : Element}
    (he : form.validateAction.map Element.member = some e)
    (hother : form.clearAction.map Element.member ≠ some e) (halive : w.hostAlive = true) :
    w.click? unit lookup e = some (true, w.evaluated.called
      (reactions form (w.set.evaluate w.screen).1 (w.set.evaluate w.screen).2.2.errors)) := by
  refine click_validateHandler unit lookup ?_ halive
  rw [h.handler, if_neg hother, if_pos he]

/-- A click on the validating action does nothing once the host is gone. -/
theorem Wired.click_validate_dropped (h : Wired form vs s w) {e : Element}
    (he : form.validateAction.map Element.member = some e)
    (hother : form.clearAction.map Element.member ≠ some e) (hdropped : w.hostAlive = false) :
    w.click? unit lookup e = some (true, w) := by
  have hfound : w.handler? e = some (validateHandler form) := by
    rw [h.handler, if_neg hother, if_pos he]
  exact click_validateHandler_dropped unit lookup hfound hdropped

/-- A click on the clearing action, host or no host. -/
theorem Wired.click_clear (h : Wired form vs s w) {e : Element}
    (he : form.clearAction.map Element.member = some e) :
    w.click? unit lookup e = some (true, w.cleared) := by
  refine click_clearHandler unit lookup ?_
  rw [h.handler, if_pos he]

/-- A click on anything else. -/
theorem Wired.click_other (h : Wired form vs s w) {e : Element}
    (hvalidate : form.validateAction.map Element.member ≠ some e)
    (hclear : form.clearAction.map Element.member ≠ some e) :
    w.click? unit lookup e = some (false, w) := by
  refine click_of_handler?_eq_none unit lookup ?_
  rw [h.handler, if_neg hclear, if_neg hvalidate]

theorem act?_click {e : Element} {handled : Bool} (h : w.click? unit lookup e = some (handled, w')) :
    w.act? unit lookup (.click e) = some w' := by
  unfold World.act?
  dsimp only
  rw [h]
  rfl

/-- An element that validates does not clear as well. -/
theorem clear_ne_of_validate
    (hdistinct : ∀ member, form.validateAction = some member → form.clearAction ≠ some member) {e : Element}
    (he : form.validateAction.map Element.member = some e) : form.clearAction.map Element.member ≠ some e := by
  intro hclear
  obtain ⟨member, hmember, rfl⟩ := Option.map_eq_some_iff.1 he
  obtain ⟨_, hother, heq⟩ := Option.map_eq_some_iff.1 hclear
  cases heq
  exact hdistinct _ hmember hother

/-- **One click.** A wired world answers it, is wired after it, and keeps the host it has. -/
theorem Wired.act_click (hdistinct : ∀ member, form.validateAction = some member → form.clearAction ≠ some member)
    (h : Wired form vs s w) (e : Element) :
    ∃ w', w.act? unit lookup (.click e) = some w' ∧ Answers form vs s w w' (.click e) ∧ Wired form vs s w' ∧
      w'.hostAlive = w.hostAlive := by
  by_cases hv : form.validateAction.map Element.member = some e
  · -- the only handler that asks for the host
    have hc := clear_ne_of_validate hdistinct hv
    cases halive : w.hostAlive with
    | true =>
      refine ⟨_, act?_click unit lookup (h.click_validate unit lookup hv hc halive), ⟨fun _ =>
        ⟨fun _ => h.validated, fun hdropped => ?_⟩, fun hc' => absurd hc' hc, fun hv' => absurd hv hv'⟩,
        h.evaluated.of_same rfl rfl (fun _ => rfl), halive⟩
      exact absurd (halive.symm.trans hdropped) (by decide)
    | false =>
      refine ⟨w, act?_click unit lookup (h.click_validate_dropped unit lookup hv hc halive), ⟨fun _ =>
        ⟨fun halive' => ?_, fun _ => rfl⟩, fun hc' => absurd hc' hc, fun hv' => absurd hv hv'⟩, h, halive⟩
      exact absurd (halive.symm.trans halive') (by decide)
  · by_cases hc : form.clearAction.map Element.member = some e
    · exact ⟨_, act?_click unit lookup (h.click_clear unit lookup hc),
        ⟨fun hv' => absurd hv' hv, fun _ => h.clears, fun _ hc' => absurd hc hc'⟩, h.cleared, rfl⟩
    · exact ⟨w, act?_click unit lookup (h.click_other unit lookup hv hc),
        ⟨fun hv' => absurd hv' hv, fun hc' => absurd hc' hc, fun _ _ => rfl⟩, h, rfl⟩

/-- **One event.** A wired world answers it and is wired after it; only dropping ends the host's life. -/
theorem Wired.act (hdistinct : ∀ member, form.validateAction = some member → form.clearAction ≠ some member)
    (h : Wired form vs s w) (event : Event) :
    ∃ w', w.act? unit lookup event = some w' ∧ Answers form vs s w w' event ∧ Wired form vs s w' ∧
      (w'.hostAlive = true ↔ w.hostAlive = true ∧ event ≠ .dropHost) := by
  cases event with
  | enter input text => exact ⟨_, rfl, h.entered input text, h.enter input text, by simp [World.enter]⟩
  | dropHost => exact ⟨_, rfl, rfl, h.of_same rfl rfl (fun _ => rfl), by simp [World.dropHost]⟩
  | click e =>
    obtain ⟨w', hact, hanswer, hwired, halive⟩ := h.act_click unit lookup hdistinct e
    exact ⟨w', hact, hanswer, hwired, by simp [halive]⟩

/-- Without the host no event makes a call or an evaluation. -/
theorem Answers.silent {event : Event} (h : Answers form vs s w w' event) (hdropped : w.hostAlive = false) :
    w'.calls = w.calls ∧ w'.log = w.log := by
  cases event with
  | enter input text => exact ⟨h.calls, h.log⟩
  | dropHost =>
    cases h
    exact ⟨rfl, rfl⟩
  | click e =>
    obtain ⟨hvalidate, hclear, hother⟩ := h
    by_cases hv : form.validateAction.map Element.member = some e
    · rw [(hvalidate hv).2 hdropped]
      exact ⟨rfl, rfl⟩
    · by_cases hc : form.clearAction.map Element.member = some e
      · exact ⟨(hclear hc).calls, (hclear hc).log⟩
      · rw [hother hv hc]
        exact ⟨rfl, rfl⟩

/-- **Many events.** A wired world never gets stuck and stays wired; the host lives until it is dropped, and without it
nothing is called or evaluated. -/
theorem Wired.run (hdistinct : ∀ member, form.validateAction = some member → form.clearAction ≠ some member)
    (h : Wired form vs s w) (events : List Event) :
    ∃ w', w.run? unit lookup events = some w' ∧ Wired form vs s w' ∧
      (w'.hostAlive = true ↔ w.hostAlive = true ∧ .dropHost ∉ events) ∧
      (w.hostAlive = false → w'.calls = w.calls ∧ w'.log = w.log) := by
  induction events generalizing w with
  | nil => exact ⟨w, rfl, h, by simp, fun _ => ⟨rfl, rfl⟩⟩
  | cons event events ih =>
    obtain ⟨v, hact, hanswer, hwired, halive⟩ := h.act unit lookup hdistinct event
    obtain ⟨w', hrun, hwired', halive', hsilent⟩ := ih hwired
    refine ⟨w', ?_, hwired', ?_, fun hdropped => ?_⟩
    · unfold World.run? at hrun ⊢
      rw [List.foldlM_cons, hact]
      exact hrun
    · rw [halive', halive, List.mem_cons, not_or, and_assoc, ne_comm]
    · -- a dropped host does not come back
      have hdropped' : v.hostAlive = false := by
        cases hv : v.hostAlive with
        | false => rfl
        | true =>
          rw [(halive.1 hv).1] at hdropped
          exact hdropped
      obtain ⟨hcalls, hlog⟩ := hanswer.silent hdropped
      obtain ⟨hcalls', hlog'⟩ := hsilent hdropped'
      exact ⟨hcalls'.trans hcalls, hlog'.trans hlog⟩

end Steps

/-! ## The contract -/

end FormWiring.Execution
