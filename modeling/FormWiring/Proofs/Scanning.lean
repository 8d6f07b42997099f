import FormWiring.Proofs.Assembly
import FormWiring.Proofs.Clicks
import FormWiring.Proofs.Selection

/-!
# Wiring by scanning

A reflective unit takes its validators and its action elements from a view tree. All that it keeps of the views is
their validators, one view after the other, in one set; all that it keeps of the elements are the first of each role.
From then on it does what one set does that is evaluated and cleared from outside, and so does a direct unit: both are
held against the same small machine.

Main statement: `observed_of_scan`.
-/

set_option autoImplicit false

namespace FormWiring.Execution

open WiringUnit

/-! ## One set, driven by events -/

/-- **What can be told from outside** about a running unit: what the inputs hold and show, its set, the calls made back,
the evaluations logged, and whether the host lives. -/
structure Observed where
  screen : Screen
  set : ValidatorSet
  calls : List Call
  log : List LogRecord
  hostAlive : Bool
  deriving Repr

/-- **Outside** of a world. -/
def World.observed (w : World) : Observed :=
  ⟨w.screen, w.set, w.calls, w.log, w.hostAlive⟩

namespace Observed

/-- **One event on one set.** A click on the validating element evaluates the set once and makes the calls that answer
the verdict, while the host lives; a click on the clearing element clears the set; other clicks do nothing. -/
def act (form : Form) (element : Action → Option Element) (o : Observed) : Event → Observed
  | .enter input text => { o with screen := o.screen.enter input text }
  | .dropHost => { o with hostAlive := false }
  | .click e =>
    if element .validate = some e then
      if o.hostAlive then
        let (valid, screen, set) := o.set.evaluate o.screen
        { o with
          screen := screen
          set := set
          calls := o.calls ++ reactions form valid set.errors
          log := o.log ++ [set.evaluationLog valid] }
      else o
    else if element .clear = some e then
      let (screen, set) := o.set.clear o.screen
      { o with screen := screen, set := set }
    else o

/-- **Events in order.** -/
def run (form : Form) (element : Action → Option Element) (o : Observed) (events : List Event) : Observed :=
  events.foldl (act form element) o

/-- **Start**: validators bound to a screen and put into one set, of which nothing was asked yet. -/
def start (s : Screen) (vs : List Validator) (log : List LogRecord) : Observed :=
  ⟨s.attachAll vs, ⟨vs, []⟩, [], log, true⟩

end Observed

/-! ## Units that do the same -/

/-- **Handlers of two elements**: the validating and the clearing one have theirs, and no other element has any. -/
def Handles (form : Form) (element : Action → Option Element) (w : World) : Prop :=
  ∀ e, w.handler? e =
    if element .validate = some e then some (validateHandler form)
    else if element .clear = some e then some clearHandler
    else none

section Simulation

variable {form : Form} {element : Action → Option Element} {w : World} (unit : WiringUnit)
  (lookup : Int32 → String)

/-- **One event.** A world with the two handlers does what one set does, and keeps them. -/
theorem Handles.act (h : Handles form element w) (event : Event) :
    ∃ w', w.act? unit lookup event = some w' ∧ w'.observed = w.observed.act form element event ∧
      Handles form element w' := by
  cases event with
  | enter input text => exact ⟨_, rfl, rfl, h⟩
  | dropHost => exact ⟨_, rfl, rfl, h⟩
  | click e =>
    unfold Observed.act
    dsimp only
    by_cases hvalidate : element .validate = some e
    · have hfound : w.handler? e = some (validateHandler form) := by rw [h e, if_pos hvalidate]
      rw [if_pos hvalidate]
      cases halive : w.hostAlive with
      | true =>
        refine ⟨_, act?_click unit lookup (click_validateHandler unit lookup hfound halive), ?_, h⟩
        exact (if_pos halive).symm
      | false =>
        refine ⟨w, act?_click unit lookup (click_validateHandler_dropped unit lookup hfound halive), ?_, h⟩
        refine (if_neg ?_).symm
        rw [show w.observed.hostAlive = false from halive]
        exact Bool.false_ne_true
    · rw [if_neg hvalidate]
      by_cases hclear : element .clear = some e
      · have hfound : w.handler? e = some clearHandler := by rw [h e, if_neg hvalidate, if_pos hclear]
        rw [if_pos hclear]
        exact ⟨_, act?_click unit lookup (click_clearHandler unit lookup hfound), rfl, h⟩
      · have hfound : w.handler? e = none := by rw [h e, if_neg hvalidate, if_neg hclear]
        rw [if_neg hclear]
        exact ⟨w, act?_click unit lookup (click_of_handler?_eq_none unit lookup hfound), rfl, h⟩

/-- **Many events.** A world with the two handlers never gets stuck, and does what one set does. -/
theorem Handles.observed_run (h : Handles form element w) (events : List Event) :
    (w.run? unit lookup events).map World.observed = some (w.observed.run form element events) := by
  induction events generalizing w with
  | nil => rfl
  | cons event events ih =>
    obtain ⟨w', hact, hobserved, hhandles⟩ := h.act unit lookup event
    unfold World.run? Observed.run at ih ⊢
    rw [List.foldlM_cons, List.foldl_cons, hact, ← hobserved]
    exact ih hhandles

end Simulation

/-! ## Running the entry point -/

section Rules

variable {c : Context} {scope : Scope} {w w' w'' : World} {v : Value}

theorem runStmt_ifSome {binding : String} {value : Expr} {body : List Stmt} {e : Element}
    (hvalue : evalExpr c scope value w = some (.optional (some e), w'))
    (hbody : runBlock c ((binding, .element e) :: scope) body w' = some (v, w'')) :
    runStmt c scope (.ifSome binding value body) w = some ((scope, .nothing), w'') := by
  exact (bind_apply hvalue).trans (bind_apply hbody)

theorem runStmt_ifSome_none {binding : String} {value : Expr} {body : List Stmt}
    (hvalue : evalExpr c scope value w = some (.optional none, w')) :
    runStmt c scope (.ifSome binding value body) w = some ((scope, .nothing), w') :=
  bind_apply hvalue

/-- **World with a handler on an element of the tree**, when there is one. -/
def World.installAt (w : World) (index : Option Nat) (h : Handler) : World :=
  match index with
  | some i => w.install (.view i) h
  | none => w

/-- **World after pending bindings were executed**, if there were any. -/
def World.settled (w : World) : World :=
  { w with tree := { w.tree with
      pending := false, executions := w.tree.executions + if w.tree.pending then 1 else 0 } }

/-- **World that scanning leaves**: bindings settled, the validators of all views in one set, the elements read, and
the two handlers installed on the first of each role. -/
def World.scanned (form : Form) (w : World) : World :=
  ({ w.settled with
      set := ⟨w.tree.views.flatten, []⟩
      tree := { w.settled.tree with reads := (selectActions w.tree.roles).2 } }.installAt
        (firstOfRole? w.tree.roles .validate) (validateHandler form)).installAt
    (firstOfRole? w.tree.roles .clear) clearHandler

/-- Bindings that wait are executed once, others are not. -/
theorem runStmt_settle (hbinding : scope.lookup bindingName = some .binding) (w : World) :
    runStmt c scope (.cond (.method bindingVar "has_pending_bindings" [])
      [.eval (.method bindingVar "execute_pending_bindings" [])] []) w = some ((scope, .nothing), w.settled) := by
  have hvar (v : World) : evalExpr c scope bindingVar v = some (.binding, v) := evalExpr_var hbinding v
  have hcondition : evalExpr c scope (.method bindingVar "has_pending_bindings" []) w =
      some (.bool w.tree.pending, w) := evalExpr_method (hvar w) (evalExprs_nil w)
  refine runStmt_cond (v := .nothing) hcondition ?_
  unfold World.settled
  cases hpending : w.tree.pending with
  | true => exact runBlock_singleton (runStmt_eval (evalExpr_method (hvar w) (evalExprs_nil w)))
  | false =>
    rw [if_neg Bool.false_ne_true, if_neg Bool.false_ne_true, Nat.add_zero, ← hpending]
    exact runBlock_nil

/-- A loop that adds the validators of each of its views adds those of all, one view after the other. -/
theorem forM_addAll {body : Value → Eval Unit}
    (hbody : ∀ vs w, body (.validators vs) w = some ((), { w with set := w.set.addAll vs }))
    (views : List (List Validator)) (w : World) :
    (views.map Value.validators).forM body w = some ((), { w with set := w.set.addAll views.flatten }) := by
  induction views generalizing w with
  | nil =>
    rw [List.flatten_nil, ValidatorSet.addAll, List.append_nil]
    rfl
  | cons vs views ih =>
    change (body (.validators vs) >>= fun _ => (views.map Value.validators).forM body) w = _
    rw [bind_apply (hbody vs w), ih, List.flatten_cons]
    simp only [ValidatorSet.addAll, List.append_assoc]

/-- The loop over the views puts the validators of all of them into the set. -/
theorem runStmt_addViews {views : List (List Validator)} (hviews : scope.lookup "views" = some (.views views))
    (hset : scope.lookup setName = some .set) (w : World) :
    runStmt c scope (.forEach "view" (.var "views")
      [.eval (.method setVar "add_validators" [.method (.var "view") "validators" []])]) w =
        some ((scope, .nothing), { w with set := w.set.addAll views.flatten }) := by
  have hvalue : evalExpr c scope (.var "views") w = some (.views views, w) := evalExpr_var hviews w
  have hbody : ∀ (vs : List Validator) (w : World), runBlock c (("view", .validators vs) :: scope)
      [.eval (.method setVar "add_validators" [.method (.var "view") "validators" []])] w =
        some (.nothing, { w with set := w.set.addAll vs }) := by
    intro vs w
    have hset' : List.lookup setName (("view", Value.validators vs) :: scope) = some .set := hset
    have hvar : evalExpr c (("view", .validators vs) :: scope) (.var "view") w = some (.validators vs, w) :=
      evalExpr_var rfl w
    have hview : evalExpr c (("view", .validators vs) :: scope) (.method (.var "view") "validators" []) w =
        some (.validators vs, w) := evalExpr_method hvar (evalExprs_nil w)
    exact runBlock_singleton (runStmt_eval (evalExpr_method (evalExpr_setVar hset' w) (evalExprs_singleton hview)))
  have hiterated : iterated (.views views) w = some (views.map .validators, w) := rfl
  exact (bind_apply hvalue).trans ((bind_apply hiterated).trans
    (bind_apply (forM_addAll (fun vs w => bind_apply (hbody vs w)) views w)))

/-- What is called with the element found for an action installs its handler there, if there is one. -/
theorem runStmt_wireFound {h : Handler} {binding : String} {value call : Expr} {index : Option Nat}
    (hvalue : evalExpr c scope value w = some (.optional (index.map .view), w))
    (hcall : ∀ i, evalExpr c ((binding, .element (.view i)) :: scope) call w =
      some (.nothing, w.install (.view i) h)) :
    runStmt c scope (.ifSome binding value [.eval call]) w = some ((scope, .nothing), w.installAt index h) := by
  cases index with
  | none => exact runStmt_ifSome_none hvalue
  | some i => exact runStmt_ifSome hvalue (runBlock_singleton (runStmt_eval (hcall i)))

theorem runStmt_wireFoundValidate {h : Handler} {selected : SelectedActions}
    (hinvoke : ∀ e w, c.invoke validateListenerName [.set, .element e, .host] w = some (.nothing, w.install e h))
    (hactions : scope.lookup "actions" = some (.actions selected))
    (hset : scope.lookup setName = some .set) (htarget : scope.lookup targetName = some .host) (w : World) :
    runStmt c scope (.ifSome "validate_button" (.field (.var "actions") "validate")
      [wireValidate (.var "validate_button")]) w =
        some ((scope, .nothing), w.installAt selected.validate h) := by
  refine runStmt_wireFound (evalExpr_field (evalExpr_var hactions w)) fun i => ?_
  have hset' : List.lookup setName (("validate_button", Value.element (.view i)) :: scope) = some .set := hset
  have htarget' : List.lookup targetName (("validate_button", Value.element (.view i)) :: scope) = some .host :=
    htarget
  have hargs : evalExprs c (("validate_button", .element (.view i)) :: scope)
      [.ref setVar, .ref (.var "validate_button"), targetVar] w = some ([.set, .element (.view i), .host], w) :=
    evalExprs_cons (evalExpr_ref (evalExpr_setVar hset' w))
      (evalExprs_cons (evalExpr_ref (evalExpr_var rfl w)) (evalExprs_cons (evalExpr_targetVar htarget' w) rfl))
  exact (evalExpr_associated hargs).trans (hinvoke (.view i) w)

theorem runStmt_wireFoundClear {h : Handler} {selected : SelectedActions}
    (hinvoke : ∀ e w, c.invoke clearListenerName [.set, .element e] w = some (.nothing, w.install e h))
    (hactions : scope.lookup "actions" = some (.actions selected))
    (hset : scope.lookup setName = some .set) (w : World) :
    runStmt c scope (.ifSome "clear_button" (.field (.var "actions") "clear")
      [wireClear (.var "clear_button")]) w = some ((scope, .nothing), w.installAt selected.clear h) := by
  refine runStmt_wireFound (evalExpr_field (evalExpr_var hactions w)) fun i => ?_
  have hset' : List.lookup setName (("clear_button", Value.element (.view i)) :: scope) = some .set := hset
  have hargs : evalExprs c (("clear_button", .element (.view i)) :: scope)
      [.ref setVar, .ref (.var "clear_button")] w = some ([.set, .element (.view i)], w) :=
    evalExprs_cons (evalExpr_ref (evalExpr_setVar hset' w))
      (evalExprs_cons (evalExpr_ref (evalExpr_var rfl w)) rfl)
  exact (evalExpr_associated hargs).trans (hinvoke (.view i) w)

end Rules

/-! ## Methods of a reflective unit -/

section Methods

variable {form : Form} {ds : List Descriptor} {options : Options} (lookup : Int32 → String)
  (hreflective : form.variant options = .reflective)
include hreflective

theorem methods_of_reflective : (ofForm form ds options).methods = reflectiveMethods form := by
  unfold ofForm
  rw [hreflective]

theorem method?_of_reflective (name : String) :
    (ofForm form ds options).method? name = (reflectiveMethods form).find? fun m => m.name == name := by
  unfold method?
  rw [methods_of_reflective hreflective]

/-- A listener of a reflective unit installs its handler on the element it is given. -/
theorem invoke_validateListener_reflective (depth : Nat) (e : Element) (w : World) :
    invoke (ofForm form ds options) lookup (depth + 1) validateListenerName [.set, .element e, .host] w =
      some (.nothing, w.install e (validateHandler form)) := by
  have hmethod : (ofForm form ds options).method? validateListenerName = some (validateListener form) :=
    method?_of_reflective hreflective _
  rw [invoke_of_method? lookup hmethod rfl]
  rfl

theorem invoke_clearListener_reflective (depth : Nat) (e : Element) (w : World) :
    invoke (ofForm form ds options) lookup (depth + 1) clearListenerName [.set, .element e] w =
      some (.nothing, w.install e clearHandler) := by
  have hmethod : (ofForm form ds options).method? clearListenerName = some clearListener :=
    method?_of_reflective hreflective _
  rw [invoke_of_method? lookup hmethod rfl]
  rfl

/-- **The scanning constructor** settles the bindings, fills the set and installs the handlers of what it found. -/
theorem invoke_new_reflective (depth : Nat) (w : World) :
    invoke (ofForm form ds options) lookup (depth + 2) "new" [.host, .binding] w = some (.unit, w.scanned form) := by
  rw [invoke_of_method? lookup (method?_new_reflective hreflective) rfl]
  have hnew : ∀ scope w', runStmt ⟨lookup, invoke (ofForm form ds options) lookup (depth + 1)⟩ scope
      (.bind setName true .newSet) w' = some (((setName, .set) :: scope, .nothing), { w' with set := {} }) :=
    fun _ _ => runStmt_bind rfl
  have hselect : ∀ scope w', scope.lookup "buttons" = some (.elements w.tree.roles) →
      runStmt ⟨lookup, invoke (ofForm form ds options) lookup (depth + 1)⟩ scope
        (.bind "actions" false (.call .selectActions [.ref (.var "buttons")])) w' =
          some ((("actions", .actions (selectActions w.tree.roles).1) :: scope, .nothing),
            { w' with tree := { w'.tree with reads := (selectActions w.tree.roles).2 } }) := by
    intro scope w' hbuttons
    exact runStmt_bind (bind_apply (evalExprs_singleton (evalExpr_ref (evalExpr_var hbuttons w'))))
  have hshare : ∀ scope w', scope.lookup setName = some .set →
      runStmt ⟨lookup, invoke (ofForm form ds options) lookup (depth + 1)⟩ scope shareSet w' =
        some (((setName, .set) :: scope, .nothing), w') := by
    intro scope w' hset
    exact runStmt_bind (bind_apply (evalExprs_singleton (evalExpr_setVar hset w')))
  change runBlock _ [(targetName, .host), (bindingName, .binding)] reflectiveConstructor.body w = _
  unfold reflectiveConstructor
  dsimp only
  rw [runBlock_cons (by simp) (runStmt_settle rfl w), runBlock_cons (by simp) (hnew _ _),
    runBlock_cons (by simp) (runStmt_bind (v := .views w.tree.views) rfl),
    runBlock_cons (by simp) (runStmt_bind (v := .elements w.tree.roles) rfl),
    runBlock_cons (by simp) (runStmt_addViews rfl rfl _),
    runBlock_cons (by simp) (hselect _ _ rfl), runBlock_cons (by simp) (hshare _ _ rfl),
    runBlock_cons (by simp) (runStmt_wireFoundValidate
      (invoke_validateListener_reflective lookup hreflective depth) rfl rfl rfl _),
    runBlock_cons (by simp) (runStmt_wireFoundClear
      (invoke_clearListener_reflective lookup hreflective depth) rfl rfl _)]
  have hvalidate : (selectActions w.tree.roles).1.validate = firstOfRole? w.tree.roles .validate :=
    of_selectActions w.tree.roles .validate
  have hclear : (selectActions w.tree.roles).1.clear = firstOfRole? w.tree.roles .clear :=
    of_selectActions w.tree.roles .clear
  rw [hvalidate, hclear]
  rfl

/-- **Entry point of a reflective unit.** It never gets stuck, and leaves the world that scanning leaves. -/
theorem World.init?_ofForm_reflective (w : World) :
    World.init? (ofForm form ds options) lookup w = some (w.scanned form) := by
  have hmethod : (ofForm form ds options).method? "init" = some (entryPoint true) :=
    method?_of_reflective hreflective _
  have hdepth : callDepth (ofForm form ds options) = 5 := by
    unfold callDepth
    rw [methods_of_reflective hreflective]
    rfl
  have hvariant : (ofForm form ds options).variant = .reflective := hreflective
  have hrun : runBlock ⟨lookup, invoke (ofForm form ds options) lookup 4⟩
      [(targetName, .host), (bindingName, .binding)] (entryPoint true).body w =
        some (.nothing, w.scanned form) := by
    have hargs : ∀ c : Context, evalExprs c [(targetName, .host), (bindingName, .binding)] [targetVar, bindingVar] w =
        some ([.host, .binding], w) :=
      fun c => evalExprs_cons (evalExpr_targetVar rfl w) (evalExprs_cons (evalExpr_var rfl w) rfl)
    exact runBlock_singleton (runStmt_eval
      ((evalExpr_associated (hargs _)).trans (invoke_new_reflective lookup hreflective 2 w)))
  unfold World.init?
  rw [hvariant, hdepth]
  dsimp only
  rw [invoke_of_method? lookup hmethod rfl]
  exact congrArg (Option.map (·.2)) hrun

end Methods

/-! ## The world that scanning leaves -/

/-- **First element of a role** in the tree. -/
def firstElement? (roles : List (Option Action)) (action : Action) : Option Element :=
  (firstOfRole? roles action).map .view

theorem handler?_installAt (w : World) (index : Option Nat) (h : Handler) (e : Element) :
    (w.installAt index h).handler? e = if index.map Element.view = some e then some h else w.handler? e := by
  cases index with
  | none => rfl
  | some i =>
    unfold World.installAt
    rw [handler?_install]
    exact if_congr (by simp [eq_comm]) rfl rfl

/-- The first elements of the two roles get their handlers, and no other element gets one. -/
theorem handles_scanned (form : Form) {w : World} (hfresh : w.handlers = []) :
    Handles form (firstElement? w.tree.roles) (w.scanned form) := by
  intro e
  have hnone : ∀ v : World, v.handlers = [] → v.handler? e = none := by
    intro v hv
    unfold World.handler?
    rw [hv]
    rfl
  unfold World.scanned firstElement?
  rw [handler?_installAt, handler?_installAt, hnone]
  swap
  · exact hfresh
  by_cases hvalidate : (firstOfRole? w.tree.roles .validate).map Element.view = some e
  · -- the element that clears is another one
    have hclear : (firstOfRole? w.tree.roles .clear).map Element.view ≠ some e := by
      obtain ⟨i, hi, rfl⟩ := Option.map_eq_some_iff.1 hvalidate
      intro hclear
      obtain ⟨j, hj, hview⟩ := Option.map_eq_some_iff.1 hclear
      cases hview
      exact firstOfRole?_ne hi (by decide) hj
    rw [if_neg hclear, if_pos hvalidate, if_pos hvalidate]
  · rw [if_neg hvalidate, if_neg hvalidate]

theorem observed_installAt (w : World) (index : Option Nat) (h : Handler) :
    (w.installAt index h).observed = w.observed := by
  cases index <;> rfl

theorem tree_installAt (w : World) (index : Option Nat) (h : Handler) : (w.installAt index h).tree = w.tree := by
  cases index <;> rfl

/-- **World before a host is bound** to a tree: the validators of its views are bound to the screen already, and nothing
was asked of the tree yet. -/
def World.bound (s : Screen) (views : List (List Validator)) (roles : List (Option Action)) (pending : Bool) : World :=
  { screen := s.attachAll views.flatten, tree := { views := views, roles := roles, pending := pending } }

/-! ## Declared elements -/

/-- **Declared elements wire one set too.** A unit that is compiled to the direct variant from a form with different
members for its two actions does, in any run, what one set does that holds the validators of its fields. -/
theorem observed_of_declared {form : Form} {options : Options} {unit : WiringUnit}
    (hcompile : form.compile options = .ok unit) (hdirect : unit.variant = .direct)
    (hdistinct : ∀ member, form.validateAction = some member → form.clearAction ≠ some member)
    (lookup : Int32 → String) (s : Screen) :
    ∃ vs w₀, form.descriptors.mapM (Validator.ofDescriptor? lookup) = some vs ∧
      World.init? unit lookup { screen := s } = some w₀ ∧
      ∀ events, (w₀.run? unit lookup events).map World.observed =
        some ((Observed.start s vs (vs.flatMap Validator.buildLog)).run form
          (fun | .validate => form.validateAction.map .member | .clear => form.clearAction.map .member) events) := by
  obtain ⟨-, rfl⟩ := Form.compile_eq_ok_iff.1 hcompile
  have hvs := mapM_ofDescriptor?_resolve lookup form.fields
  refine ⟨_, _, hvs, World.init?_ofForm_direct lookup hdirect hvs { screen := s }, fun events => ?_⟩
  have hwired := wired_wired form (form.fields.filterMap (Field.validator? lookup form.fields)) s
  have hhandles : Handles form
      (fun | .validate => form.validateAction.map .member | .clear => form.clearAction.map .member)
      (World.wired form (form.fields.filterMap (Field.validator? lookup form.fields)) { screen := s }) := by
    intro e
    rw [hwired.handler e]
    by_cases hvalidate : form.validateAction.map Element.member = some e
    · rw [if_neg (clear_ne_of_validate hdistinct hvalidate), if_pos hvalidate, if_pos hvalidate]
    · rw [if_neg hvalidate, if_neg hvalidate]
  rw [hhandles.observed_run]
  unfold World.wired World.installOn
  cases form.validateAction <;> cases form.clearAction <;> rfl

/-! ## The statement -/

/-- **Scanning wires one set.** A unit that is compiled to the reflective variant is bound to a tree with any views and
elements. Its entry point executes bindings exactly if they wait, once, and leaves none; it installs handlers on the
first element of each role and on no other. From then on the unit does, in any run, what one set does that holds the
validators of all views in order. How they are split into views cannot be told. -/
theorem observed_of_scan {form : Form} {options : Options} {unit : WiringUnit}
    (hcompile : form.compile options = .ok unit) (hreflective : unit.variant = .reflective)
    (lookup : Int32 → String) (s : Screen) (views : List (List Validator)) (roles : List (Option Action))
    (pending : Bool) :
    (∃ w₀, World.init? unit lookup (.bound s views roles pending) = some w₀ ∧
      w₀.tree.pending = false ∧ w₀.tree.executions = (if pending then 1 else 0) ∧
      (∀ e, (w₀.handler? e).isSome = true ↔ ∃ action, firstElement? roles action = some e) ∧
      ∀ events, (w₀.run? unit lookup events).map World.observed =
        some ((Observed.start s views.flatten []).run form (firstElement? roles) events)) ∧
    ∀ views' events, views'.flatten = views.flatten →
      ((World.init? unit lookup (.bound s views' roles pending)).bind fun w => w.run? unit lookup events).map
          World.observed =
        ((World.init? unit lookup (.bound s views roles pending)).bind fun w => w.run? unit lookup events).map
          World.observed := by
  obtain ⟨-, rfl⟩ := Form.compile_eq_ok_iff.1 hcompile
  have hinit : ∀ views, World.init? (ofForm form form.descriptors options) lookup (.bound s views roles pending) =
      some ((World.bound s views roles pending).scanned form) :=
    fun views => World.init?_ofForm_reflective lookup hreflective _
  have hhandles : ∀ views, Handles form (firstElement? roles) ((World.bound s views roles pending).scanned form) :=
    fun views => handles_scanned form rfl
  have hrun : ∀ views events, (((World.bound s views roles pending).scanned form).run?
      (ofForm form form.descriptors options) lookup events).map World.observed =
        some ((Observed.start s views.flatten []).run form (firstElement? roles) events) := by
    intro views events
    have hstart : ((World.bound s views roles pending).scanned form).observed = .start s views.flatten [] := by
      unfold World.scanned
      rw [observed_installAt, observed_installAt]
      rfl
    rw [(hhandles views).observed_run, hstart]
  refine ⟨⟨_, hinit views, ?_, ?_, fun e => ?_, hrun views⟩, fun views' events hsame => ?_⟩
  · unfold World.scanned
    rw [tree_installAt, tree_installAt]
    rfl
  · unfold World.scanned
    rw [tree_installAt, tree_installAt]
    exact Nat.zero_add _
  · rw [hhandles views e]
    constructor
    · intro h
      by_cases hvalidate : firstElement? roles .validate = some e
      · exact ⟨.validate, hvalidate⟩
      · rw [if_neg hvalidate] at h
        by_cases hclear : firstElement? roles .clear = some e
        · exact ⟨.clear, hclear⟩
        · rw [if_neg hclear] at h
          cases h
    · rintro ⟨action, haction⟩
      cases action with
      | validate => rw [if_pos haction]; rfl
      | clear =>
        rw [if_pos haction]
        split <;> rfl
  · rw [hinit, hinit, Option.bind_some, Option.bind_some, hrun, hrun, hsame]

/-- A host without fields of its own. -/
def boundHost : Form where
  host := "Bound"
  onSuccess := "on_valid"
  onError := some ⟨"on_errors", .withErrors⟩

/-- Two views, with waiting bindings: the second button refuses an empty name and accepts the one entered next. -/
theorem observed_of_boundHost :
    boundHost.compile { dataBinding := true } = .ok (.ofForm boundHost [] { dataBinding := true }) ∧
      (WiringUnit.ofForm boundHost [] { dataBinding := true }).variant = .reflective ∧
      ∃ w₀, World.init? (.ofForm boundHost [] { dataBinding := true }) (fun _ => "")
          (.bound {} [[.single ⟨"name", "no name", true⟩ .present], [.single ⟨"age", "no number", true⟩
            (.tested .onlyNumber false)]] [some .clear, some .validate, none, some .clear] true) = some w₀ ∧
        w₀.tree.pending = false ∧ w₀.tree.executions = 1 ∧
        (w₀.handler? (.view 3)).isSome = false ∧
        (w₀.run? (.ofForm boundHost [] { dataBinding := true }) (fun _ => "")
            [.click (.view 1), .enter "name" "Ann", .click (.view 1)]).map (fun w => w.observed.calls) =
          some [⟨"on_errors", some ["no name"]⟩, ⟨"on_valid", none⟩] := by
  have hcompile : boundHost.compile { dataBinding := true } = .ok (.ofForm boundHost [] { dataBinding := true }) := rfl
  obtain ⟨⟨w₀, hinit, hpending, hexecutions, hhandlers, hrun⟩, -⟩ := observed_of_scan hcompile rfl (fun _ => "") {}
    [[.single ⟨"name", "no name", true⟩ .present], [.single ⟨"age", "no number", true⟩ (.tested .onlyNumber false)]]
    [some .clear, some .validate, none, some .clear] true
  have hlast : ¬ ∃ action, firstElement? [some .clear, some .validate, none, some .clear] action =
      some (.view 3) := by
    rintro ⟨action, haction⟩
    cases action <;> exact absurd haction (by decide)
  refine ⟨hcompile, rfl, w₀, hinit, hpending, hexecutions, ?_, ?_⟩
  · rw [← Bool.not_eq_true, hhandlers]
    exact hlast
  · have hcalls := congrArg (Option.map Observed.calls) (hrun [.click (.view 1), .enter "name" "Ann", .click (.view 1)])
    rw [Option.map_map] at hcalls
    refine hcalls.trans ?_
    decide

end FormWiring.Execution
