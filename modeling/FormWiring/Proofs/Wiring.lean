import FormWiring.Execution.Evaluator
import FormWiring.Session

/-!
# What the entry point leaves behind

Running the entry point of a direct unit builds the validators of its descriptors in order, puts each into the set as
it is built, and installs the click handlers of the declared actions. Evaluation is followed by rules, one for each
kind of statement and expression, so that a method is run by walking down its body.

Main statement: `World.init?_ofForm_direct`.
-/

set_option autoImplicit false

namespace FormWiring.Execution

open WiringUnit

/-! ## Rules of evaluation -/

section Rules

variable {c : Context} {scope scope' : Scope} {w w' w'' : World} {v : Value} {vs : List Value}

theorem bind_apply {α β : Type} {x : Eval α} {f : α → Eval β} {a : α} (h : x w = some (a, w')) :
    (x >>= f) w = f a w' := by
  change (x w >>= fun p => f p.1 p.2) = f a w'
  rw [h]
  rfl

-- the evaluator computes on each kind down to binds, so a rule is the runs of the parts, bound one after the other

theorem runStmt_bind {name : String} {isMutable : Bool} {e : Expr}
    (h : evalExpr c scope e w = some (v, w')) :
    runStmt c scope (.bind name isMutable e) w = some (((name, v) :: scope, .nothing), w') :=
  bind_apply h

theorem runStmt_eval {e : Expr} (h : evalExpr c scope e w = some (v, w')) :
    runStmt c scope (.eval e) w = some ((scope, .nothing), w') :=
  bind_apply h

theorem runStmt_cond {condition : Expr} {yes no : List Stmt} {b : Bool}
    (hcondition : evalExpr c scope condition w = some (.bool b, w'))
    (hbranch : runBlock c scope (if b then yes else no) w' = some (v, w'')) :
    runStmt c scope (.cond condition yes no) w = some ((scope, .nothing), w'') := by
  refine (bind_apply hcondition).trans ?_
  cases b with
  | true => exact bind_apply hbranch
  | false => exact bind_apply hbranch

theorem runBlock_nil : runBlock c scope [] w = some (.nothing, w) :=
  rfl

theorem runBlock_singleton {stmt : Stmt} (h : runStmt c scope stmt w = some ((scope', v), w')) :
    runBlock c scope [stmt] w = some (v, w') :=
  bind_apply h

/-- A statement before others hands its scope and its world on. -/
theorem runBlock_cons {stmt : Stmt} {rest : List Stmt} (hrest : rest ≠ [])
    (h : runStmt c scope stmt w = some ((scope', v), w')) :
    runBlock c scope (stmt :: rest) w = runBlock c scope' rest w' := by
  cases rest with
  | nil => exact absurd rfl hrest
  | cons next rest => exact bind_apply h

theorem evalExpr_var {name : String} (hname : scope.lookup name = some v) (w : World) :
    evalExpr c scope (.var name) w = some (v, w) := by
  rw [evalExpr, hname]
  rfl

theorem evalExprs_nil (w : World) : evalExprs c scope [] w = some ([], w) :=
  rfl

theorem evalExprs_cons {e : Expr} {es : List Expr}
    (hfirst : evalExpr c scope e w = some (v, w'))
    (hrest : evalExprs c scope es w' = some (vs, w'')) :
    evalExprs c scope (e :: es) w = some (v :: vs, w'') :=
  (bind_apply hfirst).trans (bind_apply hrest)

theorem evalExprs_singleton {e : Expr} (h : evalExpr c scope e w = some (v, w')) :
    evalExprs c scope [e] w = some ([v], w') :=
  evalExprs_cons h (evalExprs_nil w')

theorem evalExpr_ref {e : Expr} (h : evalExpr c scope e w = some (v, w')) :
    evalExpr c scope (.ref e) w = some (v, w') :=
  h

theorem evalExpr_field {base : Expr} {name : String} (h : evalExpr c scope base w = some (v, w')) :
    evalExpr c scope (.field base name) w = fieldOf v name w' :=
  bind_apply h

theorem evalExpr_newValidator {kind : ValidatorKind} {args : List Expr}
    (hargs : evalExprs c scope args w = some (vs, w')) :
    evalExpr c scope (.newValidator kind args) w = construct kind vs w' :=
  bind_apply hargs

theorem evalExpr_associated {name : String} {args : List Expr}
    (hargs : evalExprs c scope args w = some (vs, w')) :
    evalExpr c scope (.call (.associated name) args) w = c.invoke name vs w' :=
  bind_apply hargs

/-- The receiver is evaluated before the arguments. -/
theorem evalExpr_method {receiver : Expr} {name : String} {args : List Expr}
    (hreceiver : evalExpr c scope receiver w = some (v, w'))
    (hargs : evalExprs c scope args w' = some (vs, w'')) :
    evalExpr c scope (.method receiver name args) w = callMethod v name vs w'' :=
  (bind_apply hreceiver).trans (bind_apply hargs)

end Rules

/-! ## Building validators -/

section Building

variable {c : Context} {scope : Scope}

/-- **Value of an argument.** -/
def argValue (lookup : Int32 → String) : Arg → Value
  | .bool value => .bool value
  | .int value => .int value
  | .text value => .text value
  | .message source => .text (source.text lookup)

theorem evalExpr_argExpr (arg : Arg) (w : World) :
    evalExpr c scope (argExpr arg) w = some (argValue c.lookup arg, w) := by
  cases arg <;> rfl

theorem argument?_argValue (lookup : Int32 → String) (arg : Arg) :
    argument? (argValue lookup arg) = some (Validator.Argument.ofArg lookup arg) := by
  cases arg <;> rfl

theorem mapM_argument?_argValue (lookup : Int32 → String) (args : List Arg) :
    (args.map (argValue lookup)).mapM argument? = some (args.map (Validator.Argument.ofArg lookup)) := by
  induction args with
  | nil => rfl
  | cons arg args ih =>
    rw [List.map_cons, List.mapM_cons, argument?_argValue, ih]
    rfl

theorem evalExprs_map_argExpr (args : List Arg) (w : World) :
    evalExprs c scope (args.map argExpr) w = some (args.map (argValue c.lookup), w) := by
  induction args with
  | nil => rfl
  | cons arg args ih => exact evalExprs_cons (evalExpr_argExpr arg w) ih

/-- The arguments of a construction: the inputs, the message, the values of the others. -/
theorem evalExprs_descriptor (targets : List String) (source : MessageSource) (args : List Arg) (w : World) :
    evalExprs c scope (targets.map .input ++ .message source :: args.map argExpr) w =
      some (targets.map .input ++ .text (source.text c.lookup) :: args.map (argValue c.lookup), w) := by
  induction targets with
  | nil => exact evalExprs_cons rfl (evalExprs_map_argExpr args w)
  | cons name targets ih => exact evalExprs_cons rfl ih

theorem splitInputs_map_input (targets : List String) (message : String) (rest : List Value) :
    splitInputs (targets.map .input ++ .text message :: rest) = (targets, .text message :: rest) := by
  induction targets with
  | nil => rfl
  | cons name targets ih =>
    rw [List.map_cons, List.cons_append, splitInputs, ih]

/-- **World after a validator is built** and put into the set. -/
def World.addBuilt (w : World) (v : Validator) : World :=
  { w with screen := v.attach w.screen, log := w.log ++ v.buildLog, set := w.set.add v }

/-- The statement of a descriptor builds its validator and adds it. -/
theorem runStmt_addValidator {d : Descriptor} {v : Validator}
    (hv : Validator.ofDescriptor? c.lookup d = some v) (hset : scope.lookup setName = some .set) (w : World) :
    runStmt c scope (addValidator d) w = some ((scope, .nothing), w.addBuilt v) := by
  have hargs := @evalExprs_descriptor c scope d.targets d.message d.args w
  have hbuild : construct d.kind (d.targets.map .input ++
      .text (d.message.text c.lookup) :: d.args.map (argValue c.lookup)) w =
        some (.validator v, { w with screen := v.attach w.screen, log := w.log ++ v.buildLog }) := by
    unfold construct
    rw [splitInputs_map_input]
    dsimp only
    rw [mapM_argument?_argValue, Option.bind_some, ← Validator.ofDescriptor?, hv]
    rfl
  have hvalidator : evalExpr c scope (validatorExpr d) w =
      some (.validator v, { w with screen := v.attach w.screen, log := w.log ++ v.buildLog }) :=
    (evalExpr_newValidator hargs).trans hbuild
  exact runStmt_eval (evalExpr_method (evalExpr_var hset w) (evalExprs_singleton hvalidator))

/-- Statements of descriptors build and add their validators in order. -/
theorem runBlock_addValidators {ds : List Descriptor} {vs : List Validator}
    (hvs : ds.mapM (Validator.ofDescriptor? c.lookup) = some vs) (hset : scope.lookup setName = some .set)
    {rest : List Stmt} (hrest : rest ≠ []) (w : World) :
    runBlock c scope (ds.map addValidator ++ rest) w = runBlock c scope rest (vs.foldl World.addBuilt w) := by
  induction ds generalizing vs w with
  | nil =>
    cases hvs
    rfl
  | cons d ds ih =>
    rw [List.mapM_cons] at hvs
    obtain ⟨v, hv, hvs⟩ := Option.bind_eq_some_iff.1 hvs
    obtain ⟨vs', hvs', hcons⟩ := Option.bind_eq_some_iff.1 hvs
    cases hcons
    rw [List.map_cons, List.cons_append, runBlock_cons (by simp [hrest]) (runStmt_addValidator hv hset w)]
    exact ih hvs' (w.addBuilt v)

/-- Adding validators one by one binds all of them and fills the set. -/
theorem foldl_addBuilt (vs : List Validator) (w : World) :
    vs.foldl World.addBuilt w =
      { w with
        screen := w.screen.attachAll vs
        log := w.log ++ vs.flatMap Validator.buildLog
        set := w.set.addAll vs } := by
  induction vs generalizing w with
  | nil => simp [Screen.attachAll, ValidatorSet.addAll]
  | cons v vs ih =>
    rw [List.foldl_cons, ih]
    simp [World.addBuilt, Screen.attachAll, ValidatorSet.addAll, ValidatorSet.add]

end Building

/-! ## Installing handlers -/

/-- **Handler of the validating action**: evaluates the set and calls back. It needs the host. -/
def validateHandler (form : Form) : Handler where
  capturesTarget := true
  body := [.cond (.method setVar "is_valid" []) [.eval (.method targetVar form.onSuccess [])] (errorReaction form)]

/-- **Handler of the clearing action.** It outlives the host. -/
def clearHandler : Handler where
  capturesTarget := false
  body := [.eval (.method setVar "clear_validators" [])]

/-- **World with a handler on a member**, when there is a member. -/
def World.installOn (w : World) (member : Option String) (h : Handler) : World :=
  match member with
  | some name => w.install (.member name) h
  | none => w

/-- **World that the entry point leaves**: validators bound and in the set, then the two handlers installed. -/
def World.wired (form : Form) (vs : List Validator) (w : World) : World :=
  ({ w with
      screen := w.screen.attachAll vs
      log := w.log ++ vs.flatMap Validator.buildLog
      set := ⟨vs, []⟩ }.installOn form.validateAction (validateHandler form)).installOn form.clearAction
    clearHandler

section Installing

variable {c : Context} {scope : Scope} {rest : List Stmt}

theorem evalExpr_setVar (hset : scope.lookup setName = some .set) (w : World) :
    evalExpr c scope setVar w = some (.set, w) :=
  evalExpr_var hset w

theorem evalExpr_targetVar (htarget : scope.lookup targetName = some .host) (w : World) :
    evalExpr c scope targetVar w = some (.host, w) :=
  evalExpr_var htarget w

theorem evalExpr_member (htarget : scope.lookup targetName = some .host) (name : String) (w : World) :
    evalExpr c scope (.ref (.field targetVar name)) w = some (.element (.member name), w) :=
  evalExpr_ref (evalExpr_field (evalExpr_targetVar htarget w))

/-- Statements that wire a declared validating action install its handler. -/
theorem runBlock_wireValidate {h : Handler} {member : Option String}
    (hinvoke : member.isSome = true → ∀ e w,
      c.invoke validateListenerName [.set, .element e, .host] w = some (.nothing, w.install e h))
    (hset : scope.lookup setName = some .set) (htarget : scope.lookup targetName = some .host)
    (hrest : rest ≠ []) (w : World) :
    runBlock c scope (member.toList.map (fun name => wireValidate (.field targetVar name)) ++ rest) w =
      runBlock c scope rest (w.installOn member h) := by
  cases member with
  | none => rfl
  | some name =>
    have hargs : evalExprs c scope [.ref setVar, .ref (.field targetVar name), targetVar] w =
        some ([.set, .element (.member name), .host], w) :=
      evalExprs_cons (evalExpr_ref (evalExpr_setVar hset w))
        (evalExprs_cons (evalExpr_member htarget name w)
          (evalExprs_cons (evalExpr_targetVar htarget w) rfl))
    exact runBlock_cons hrest (runStmt_eval ((evalExpr_associated hargs).trans (hinvoke rfl (.member name) w)))

/-- Statements that wire a declared clearing action install its handler. -/
theorem runBlock_wireClear {h : Handler} {member : Option String}
    (hinvoke : member.isSome = true → ∀ e w,
      c.invoke clearListenerName [.set, .element e] w = some (.nothing, w.install e h))
    (hset : scope.lookup setName = some .set) (htarget : scope.lookup targetName = some .host)
    (hrest : rest ≠ []) (w : World) :
    runBlock c scope (member.toList.map (fun name => wireClear (.field targetVar name)) ++ rest) w =
      runBlock c scope rest (w.installOn member h) := by
  cases member with
  | none => rfl
  | some name =>
    have hargs : evalExprs c scope [.ref setVar, .ref (.field targetVar name)] w =
        some ([.set, .element (.member name)], w) :=
      evalExprs_cons (evalExpr_ref (evalExpr_setVar hset w))
        (evalExprs_cons (evalExpr_member htarget name w) rfl)
    exact runBlock_cons hrest (runStmt_eval ((evalExpr_associated hargs).trans (hinvoke rfl (.member name) w)))

end Installing

/-! ## Methods of a direct unit -/

section Methods

variable {form : Form} {ds : List Descriptor} {options : Options} (lookup : Int32 → String)

theorem invoke_of_method? {unit : WiringUnit} {name : String} {method : Method} {args : List Value}
    (hmethod : unit.method? name = some method) (hargs : method.params.length = args.length) (depth : Nat) :
    invoke unit lookup (depth + 1) name args =
      runBlock ⟨lookup, invoke unit lookup depth⟩ ((method.params.map TypedName.name).zip args)
        method.body := by
  rw [invoke, hmethod]
  exact if_pos hargs

theorem methods_ofForm (hdirect : form.variant options = .direct) :
    (ofForm form ds options).methods = directMethods form ds := by
  unfold ofForm
  rw [hdirect]

theorem method?_init (hdirect : form.variant options = .direct) :
    (ofForm form ds options).method? "init" = some (entryPoint false) := by
  unfold method?
  rw [methods_ofForm hdirect]
  unfold directMethods
  cases form.validateAction <;> cases form.clearAction <;> rfl

theorem method?_new (hdirect : form.variant options = .direct) :
    (ofForm form ds options).method? "new" = some (directConstructor form ds) := by
  unfold method?
  rw [methods_ofForm hdirect]
  rfl

theorem method?_validateListener (hdirect : form.variant options = .direct)
    (h : form.validateAction.isSome = true) :
    (ofForm form ds options).method? validateListenerName = some (validateListener form) := by
  unfold method?
  rw [methods_ofForm hdirect]
  unfold directMethods
  rw [if_pos h]
  rfl

theorem method?_clearListener (hdirect : form.variant options = .direct)
    (h : form.clearAction.isSome = true) :
    (ofForm form ds options).method? clearListenerName = some clearListener := by
  unfold method?
  rw [methods_ofForm hdirect]
  unfold directMethods
  rw [if_pos h]
  cases form.validateAction <;> rfl

/-- The validating listener installs its handler on the element it is given. -/
theorem invoke_validateListener (hdirect : form.variant options = .direct)
    (h : form.validateAction.isSome = true) (depth : Nat) (e : Element) (w : World) :
    invoke (ofForm form ds options) lookup (depth + 1) validateListenerName [.set, .element e, .host] w =
      some (.nothing, w.install e (validateHandler form)) := by
  rw [invoke_of_method? lookup (method?_validateListener hdirect h) rfl]
  rfl

/-- The clearing listener installs its handler on the element it is given. -/
theorem invoke_clearListener (hdirect : form.variant options = .direct)
    (h : form.clearAction.isSome = true) (depth : Nat) (e : Element) (w : World) :
    invoke (ofForm form ds options) lookup (depth + 1) clearListenerName [.set, .element e] w =
      some (.nothing, w.install e clearHandler) := by
  rw [invoke_of_method? lookup (method?_clearListener hdirect h) rfl]
  rfl

/-- **The constructor** builds and adds the validators, then installs the declared handlers. -/
theorem invoke_new (hdirect : form.variant options = .direct) {vs : List Validator}
    (hvs : ds.mapM (Validator.ofDescriptor? lookup) = some vs) (depth : Nat) (w : World) :
    invoke (ofForm form ds options) lookup (depth + 2) "new" [.host] w = some (.unit, w.wired form vs) := by
  rw [invoke_of_method? lookup (method?_new hdirect) rfl]
  -- the set is bound once empty and once shared, both times under the one name
  have hnew : runStmt ⟨lookup, invoke (ofForm form ds options) lookup (depth + 1)⟩ [(targetName, .host)]
      (.bind setName (!ds.isEmpty) .newSet) w =
        some (([(setName, .set), (targetName, .host)], .nothing), { w with set := {} }) :=
    runStmt_bind rfl
  have hshare : ∀ w', runStmt ⟨lookup, invoke (ofForm form ds options) lookup (depth + 1)⟩
      [(setName, .set), (targetName, .host)] shareSet w' =
        some (([(setName, .set), (setName, .set), (targetName, .host)], .nothing), w') :=
    fun w' => runStmt_bind rfl
  change runBlock _ [(targetName, .host)] (directConstructor form ds).body w = _
  unfold directConstructor
  dsimp only
  rw [runBlock_cons (by simp) hnew, runBlock_addValidators hvs rfl (by simp), foldl_addBuilt,
    runBlock_cons (by simp) (hshare _),
    runBlock_wireValidate (fun h => invoke_validateListener lookup hdirect h depth) rfl rfl (by simp),
    runBlock_wireClear (fun h => invoke_clearListener lookup hdirect h depth) rfl rfl (by simp)]
  rfl

/-- **Entry point of a direct unit.** It never gets stuck, and leaves the validators bound and in the set and the
declared handlers installed. -/
theorem World.init?_ofForm_direct (hdirect : form.variant options = .direct) {vs : List Validator}
    (hvs : ds.mapM (Validator.ofDescriptor? lookup) = some vs) (w : World) :
    World.init? (ofForm form ds options) lookup w = some (w.wired form vs) := by
  have hdepth : callDepth (ofForm form ds options) = (callDepth (ofForm form ds options) - 3) + 2 + 1 := by
    have hmethods : 2 ≤ (ofForm form ds options).methods.length := by
      rw [methods_ofForm hdirect, directMethods]
      simp only [List.length_cons, List.length_append, List.length_nil]
      omega
    unfold callDepth
    omega
  have hvariant : (ofForm form ds options).variant = .direct := hdirect
  unfold World.init?
  rw [hvariant, hdepth]
  dsimp only
  rw [invoke_of_method? lookup (method?_init hdirect) rfl]
  have hrun : runBlock ⟨lookup, invoke (ofForm form ds options) lookup
      (callDepth (ofForm form ds options) - 3 + 2)⟩ [(targetName, .host)] (entryPoint false).body w =
        some (.nothing, w.wired form vs) := by
    have hargs : ∀ c : Context, evalExprs c [(targetName, .host)] [targetVar] w = some ([.host], w) :=
      fun c => evalExprs_singleton (evalExpr_targetVar rfl w)
    exact runBlock_singleton (runStmt_eval ((evalExpr_associated (hargs _)).trans (invoke_new lookup hdirect hvs _ w)))
  exact congrArg (Option.map (·.2)) hrun

end Methods

end FormWiring.Execution
