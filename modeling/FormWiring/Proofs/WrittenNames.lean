import FormWiring.Proofs.Assembly
import FormWiring.WiringUnit.Code

/-!
# Which names can fail to be written

Writing a unit checks every name where it stands, so what fails first depends on the order of the text. Writing is
followed by the list of names it checks, in that order: a piece fails exactly when some name in its list cannot be
read, and with the first such name. The pieces put together have their lists put together, so the induction over
expressions and statements never looks at what was written.

Of the names in a compiled unit most are the unit's own and can always be read. What is left are the names that the
form itself brings in.

Main statements: `WiringUnit.failure?_code`, `Form.expand_error_iff`.
-/

set_option autoImplicit false

namespace FormWiring

open Code

/-! ## Failures -/

section Failures

variable {ε α β : Type}

/-- **Failure** of a computation, if it fails. -/
def failure? : Except ε α → Option ε
  | .error e => some e
  | .ok _ => none

theorem failure?_eq_some_iff {x : Except ε α} {e : ε} : failure? x = some e ↔ x = .error e := by
  cases x with
  | error e' => simp [failure?]
  | ok a => simp [failure?]

theorem failure?_eq_none_iff {x : Except ε α} : failure? x = none ↔ ∃ a, x = .ok a := by
  cases x with
  | error e => simp [failure?]
  | ok a => simp [failure?]

theorem failure?_mapError {ε' : Type} (x : Except ε α) (f : ε → ε') : failure? (x.mapError f) = (failure? x).map f := by
  cases x <;> rfl

/-- **The first failure counts**: the second of two computations fails only if the first one does not. -/
theorem failure?_bind {x : Except ε α} {f : α → Except ε β} {second : Option ε} (h : ∀ a, failure? (f a) = second) :
    failure? (x >>= f) = (failure? x).or second := by
  cases x with
  | error e => rfl
  | ok a => exact h a

theorem failure?_bind_pure (x : Except ε α) (f : α → β) : failure? (do let a ← x; pure (f a)) = failure? x := by
  cases x <;> rfl

theorem failure?_mapM (f : α → Except ε β) (l : List α) :
    failure? (l.mapM f) = l.findSome? fun a => failure? (f a) := by
  induction l with
  | nil => rfl
  | cons a l ih =>
    have hrest : ∀ b, failure? (do let bs ← l.mapM f; pure (b :: bs)) = l.findSome? fun a => failure? (f a) := by
      intro b
      rw [failure?_bind_pure, ih]
    rw [List.mapM_cons, failure?_bind hrest, List.findSome?_cons]
    cases failure? (f a) <;> rfl

end Failures

namespace WiringUnit

/-! ## Names checked -/

/-- **First failure** among names, in order. -/
def firstFailure? (names : List String) : Option CodeError :=
  names.findSome? fun name => failure? (nameCode name)

theorem firstFailure?_nil : firstFailure? [] = none := rfl

theorem firstFailure?_cons (name : String) (names : List String) :
    firstFailure? (name :: names) = (failure? (nameCode name)).or (firstFailure? names) := by
  unfold firstFailure?
  rw [List.findSome?_cons]
  cases failure? (nameCode name) <;> rfl

theorem firstFailure?_append (front back : List String) :
    firstFailure? (front ++ back) = (firstFailure? front).or (firstFailure? back) :=
  List.findSome?_append

/-- **Short entry** of a constructed value: its value is the variable of the same name, which is written once. -/
def isShort (name : String) : Expr → Bool
  | .var v => v == name
  | _ => false

mutual

/-- **Names checked** in an expression, in the order of the text. -/
def exprNames : Expr → List String
  | .var name => [name]
  | .field base name => exprNames base ++ [name]
  | .bool _ => []
  | .int _ => []
  | .text _ => []
  | .message _ => []
  | .input member => [member]
  | .ref inner => exprNames inner
  | .newSet => []
  | .newValidator _ args => exprsNames args
  | .call (.associated name) args => exprsNames args ++ [name]
  | .call .share args => exprsNames args
  | .call .selectActions args => exprsNames args
  | .method receiver name args => exprNames receiver ++ name :: exprsNames args
  | .construct fields => entriesNames fields

/-- **Names checked** in expressions. -/
def exprsNames : List Expr → List String
  | [] => []
  | e :: es => exprNames e ++ exprsNames es

/-- **Names checked** in the entries of a constructed value. -/
def entriesNames : List (String × Expr) → List String
  | [] => []
  | (name, value) :: rest =>
    name :: ((if isShort name value then [] else exprNames value) ++ entriesNames rest)

end

mutual

/-- **Names checked** in a statement. -/
def stmtNames : Stmt → List String
  | .bind name _ value => name :: exprNames value
  | .eval value => exprNames value
  | .cond condition thenBranch elseBranch => exprNames condition ++ (blockNames thenBranch ++ blockNames elseBranch)
  | .ifSome binding value body => binding :: (exprNames value ++ blockNames body)
  | .forEach binding iterable body => binding :: (exprNames iterable ++ blockNames body)
  | .onClick element _ body => exprNames element ++ blockNames body
  | .result value => exprNames value

/-- **Names checked** in statements. -/
def blockNames : List Stmt → List String
  | [] => []
  | stmt :: rest => stmtNames stmt ++ blockNames rest

end

/-- **Names checked** in a method. -/
def methodNames (m : Method) : List String :=
  m.name :: (m.params.map TypedName.name ++ blockNames m.body)

/-- **Names checked** in a unit. -/
def names (unit : WiringUnit) : List String :=
  unit.name :: (unit.fields.map TypedName.name ++ unit.methods.flatMap methodNames)

/-! ## Writing fails with the first of them -/

variable (s : Surroundings)

theorem entryCodes_cons (name : String) (value : Expr) (rest : List (String × Expr)) :
    entryCodes s ((name, value) :: rest) = (do
      let field ← nameCode name
      if isShort name value then do
        let rest ← entryCodes s rest
        pure ([field] :: rest)
      else do
        let value ← exprCode s value
        let rest ← entryCodes s rest
        pure ((field :: colon :: value) :: rest)) := by
  cases value <;> rfl

mutual

theorem failure?_exprCode : ∀ e : Expr, failure? (exprCode s e) = firstFailure? (exprNames e)
  | .var name => by
    rw [exprCode, exprNames, firstFailure?_cons, firstFailure?_nil]
    exact failure?_bind fun _ => rfl
  | .field base name => by
    rw [exprCode, exprNames, firstFailure?_append, ← failure?_exprCode base, firstFailure?_cons, firstFailure?_nil]
    exact failure?_bind fun _ => failure?_bind fun _ => rfl
  | .bool _ => rfl
  | .int _ => rfl
  | .text _ => rfl
  | .message (.literal _) => rfl
  | .message (.resource _) => rfl
  | .input member => by
    rw [exprCode, exprNames, firstFailure?_cons, firstFailure?_nil]
    exact failure?_bind fun _ => rfl
  | .ref inner => by
    rw [exprCode, exprNames, ← failure?_exprCode inner, failure?_bind_pure]
  | .newSet => rfl
  | .newValidator _ args => by
    rw [exprCode, exprNames, ← failure?_exprCodes args, failure?_bind_pure]
  | .call (.associated name) args => by
    rw [exprCode, exprNames, firstFailure?_append, ← failure?_exprCodes args, firstFailure?_cons, firstFailure?_nil]
    exact failure?_bind fun _ => failure?_bind fun _ => rfl
  | .call .share args => by
    rw [exprCode, exprNames, ← failure?_exprCodes args, failure?_bind_pure]
  | .call .selectActions args => by
    rw [exprCode, exprNames, ← failure?_exprCodes args, failure?_bind_pure]
  | .method receiver name args => by
    rw [exprCode, exprNames, firstFailure?_append, ← failure?_exprCode receiver, firstFailure?_cons,
      ← failure?_exprCodes args]
    refine failure?_bind fun _ => failure?_bind fun _ => ?_
    rw [failure?_bind_pure]
  | .construct fields => by
    rw [exprCode, exprNames, ← failure?_entryCodes fields, failure?_bind_pure]

theorem failure?_exprCodes : ∀ es : List Expr, failure? (exprCodes s es) = firstFailure? (exprsNames es)
  | [] => rfl
  | e :: es => by
    rw [exprCodes, exprsNames, firstFailure?_append, ← failure?_exprCode e, ← failure?_exprCodes es]
    refine failure?_bind fun _ => ?_
    rw [failure?_bind_pure]

theorem failure?_entryCodes : ∀ fields : List (String × Expr),
    failure? (entryCodes s fields) = firstFailure? (entriesNames fields)
  | [] => rfl
  | (name, value) :: rest => by
    rw [entryCodes_cons, entriesNames, firstFailure?_cons, firstFailure?_append, ← failure?_entryCodes rest]
    refine failure?_bind fun field => ?_
    have hvalue := failure?_exprCode value
    cases isShort name value with
    | true => exact failure?_bind_pure _ _
    | false =>
      rw [if_neg Bool.false_ne_true, if_neg Bool.false_ne_true, ← hvalue]
      refine failure?_bind fun _ => ?_
      exact failure?_bind_pure _ _

end

mutual

theorem failure?_stmtCode : ∀ stmt : Stmt, failure? (stmtCode s stmt) = firstFailure? (stmtNames stmt)
  | .bind name _ value => by
    rw [stmtCode, stmtNames, firstFailure?_cons, ← failure?_exprCode s value]
    refine failure?_bind fun _ => ?_
    rw [failure?_bind_pure]
  | .eval value => by
    rw [stmtCode, stmtNames, ← failure?_exprCode s value, failure?_bind_pure]
  | .cond condition thenBranch elseBranch => by
    rw [stmtCode, stmtNames, firstFailure?_append, firstFailure?_append, ← failure?_exprCode s condition,
      ← failure?_stmtCodes thenBranch, ← failure?_stmtCodes elseBranch]
    refine failure?_bind fun _ => failure?_bind fun _ => ?_
    rw [failure?_bind_pure]
  | .ifSome binding value body => by
    rw [stmtCode, stmtNames, firstFailure?_cons, firstFailure?_append, ← failure?_exprCode s value,
      ← failure?_stmtCodes body]
    refine failure?_bind fun _ => failure?_bind fun _ => ?_
    rw [failure?_bind_pure]
  | .forEach binding iterable body => by
    rw [stmtCode, stmtNames, firstFailure?_cons, firstFailure?_append, ← failure?_exprCode s iterable,
      ← failure?_stmtCodes body]
    refine failure?_bind fun _ => failure?_bind fun _ => ?_
    rw [failure?_bind_pure]
  | .onClick element _ body => by
    rw [stmtCode, stmtNames, firstFailure?_append, ← failure?_exprCode s element, ← failure?_stmtCodes body]
    refine failure?_bind fun _ => ?_
    rw [failure?_bind_pure]
  | .result value => by
    rw [stmtCode, stmtNames, failure?_exprCode s value]

theorem failure?_stmtCodes : ∀ body : List Stmt, failure? (stmtCodes s body) = firstFailure? (blockNames body)
  | [] => rfl
  | stmt :: rest => by
    rw [stmtCodes, blockNames, firstFailure?_append, ← failure?_stmtCode stmt, ← failure?_stmtCodes rest]
    refine failure?_bind fun _ => ?_
    rw [failure?_bind_pure]

end

theorem findSome?_typedNameCode (ts : List TypedName) :
    (ts.findSome? fun t => failure? (typedNameCode s t)) = firstFailure? (ts.map TypedName.name) := by
  unfold firstFailure?
  rw [List.findSome?_map]
  refine congrArg (List.findSome? · ts) (funext fun t => ?_)
  unfold typedNameCode
  rw [failure?_bind_pure]
  rfl

theorem failure?_methodCode (m : Method) : failure? (methodCode s m) = firstFailure? (methodNames m) := by
  unfold methodCode methodNames
  rw [firstFailure?_cons, firstFailure?_append, ← failure?_stmtCodes s, ← findSome?_typedNameCode s,
    ← failure?_mapM]
  refine failure?_bind fun _ => failure?_bind fun _ => ?_
  rw [failure?_bind_pure]

theorem findSome?_methodCode (ms : List Method) :
    (ms.findSome? fun m => failure? (methodCode s m)) = firstFailure? (ms.flatMap methodNames) := by
  induction ms with
  | nil => rfl
  | cons m ms ih =>
    rw [List.findSome?_cons, List.flatMap_cons, firstFailure?_append, ← failure?_methodCode s m, ← ih]
    cases failure? (methodCode s m) <;> rfl

/-- **Writing a unit fails** with the first of its paths and names that cannot be read, and only if there is one. -/
theorem failure?_code (unit : WiringUnit) (runtimePath : String) :
    failure? (unit.code runtimePath) =
      (failure? (pathCode runtimePath)).or ((failure? (pathCode unit.host)).or (firstFailure? unit.names)) := by
  have hbody : ∀ s, failure? (unit.bodyCode s) = firstFailure? unit.names := by
    intro s
    unfold bodyCode names
    rw [firstFailure?_cons, firstFailure?_append, ← findSome?_typedNameCode s, ← findSome?_methodCode s,
      ← failure?_mapM, ← failure?_mapM]
    refine failure?_bind fun _ => failure?_bind fun _ => ?_
    rw [failure?_bind_pure]
  unfold code
  exact failure?_bind fun _ => failure?_bind fun _ => hbody _

/-! ## Names of compiled units -/

/-- **Names that units bring themselves**: variables, parameters, methods, and what they call. -/
def ownNames : List String :=
  [setName, targetName, bindingName, buttonName, validateListenerName, clearListenerName, "new", "init",
    "add_validator", "add_validators", "is_valid", "errors", "clear_validators", "has_pending_bindings",
    "execute_pending_bindings", "root", "views", "view", "validators", "validation_views", "buttons", "action_views",
    "actions", "validate", "clear", "validate_button", "clear_button"]

/-- The names of units are read as they are written. -/
theorem identifier?_ownNames : ∀ name ∈ ownNames, identifier? name = some name := by
  decide

theorem nameCode_of_identifier? {name w : String} (h : identifier? name = some w) : nameCode name = .ok (.word w) := by
  unfold nameCode
  rw [h]

/-- The names of units are written as they are. -/
theorem nameCode_own {name : String} (h : name ∈ ownNames) : nameCode name = .ok (.word name) :=
  nameCode_of_identifier? (identifier?_ownNames name h)

/-- An input is the handle of its member. -/
theorem exprCode_input {member w : String} (h : identifier? member = some w) :
    exprCode s (.input member) = .ok (callCode (s.item ["ui", "InputHandle", "input_handle"])
      [[ampersand, .word targetName, dot, .word w]]) := by
  rw [exprCode, nameCode_of_identifier? h]
  rfl

/-- A name of the unit's own never fails. -/
theorem firstFailure?_own {name : String} (h : name ∈ ownNames) (names : List String) :
    firstFailure? (name :: names) = firstFailure? names := by
  rw [firstFailure?_cons, nameCode_own h]
  rfl

theorem firstFailure?_ownNames (names : List String) (h : ∀ name ∈ names, name ∈ ownNames) :
    firstFailure? names = none := by
  induction names with
  | nil => rfl
  | cons name names ih =>
    rw [firstFailure?_own (h name List.mem_cons_self)]
    exact ih fun other hother => h other (List.mem_cons_of_mem name hother)

theorem exprsNames_map_argExpr (args : List Arg) : exprsNames (args.map argExpr) = [] := by
  induction args with
  | nil => rfl
  | cons arg args ih =>
    rw [List.map_cons, exprsNames, ih]
    cases arg <;> rfl

/-- A construction checks the targets of its descriptor. -/
theorem exprNames_validatorExpr (d : Descriptor) : exprNames (validatorExpr d) = d.targets := by
  have hargs : ∀ targets : List String,
      exprsNames (targets.map .input ++ .message d.message :: d.args.map argExpr) = targets := by
    intro targets
    induction targets with
    | nil =>
      rw [List.map_nil, List.nil_append, exprsNames, exprsNames_map_argExpr]
      rfl
    | cons target targets ih =>
      rw [List.map_cons, List.cons_append, exprsNames, ih]
      rfl
  exact hargs d.targets

theorem firstFailure?_addValidators (ds : List Descriptor) :
    firstFailure? (blockNames (ds.map addValidator)) = firstFailure? (ds.flatMap Descriptor.targets) := by
  induction ds with
  | nil => rfl
  | cons d ds ih =>
    have hstmt : stmtNames (addValidator d) = setName :: "add_validator" :: d.targets := by
      rw [addValidator, stmtNames, exprNames, exprsNames, exprNames_validatorExpr]
      simp [exprsNames, exprNames, setVar]
    rw [List.map_cons, blockNames, hstmt, List.cons_append, firstFailure?_own (by decide), List.cons_append,
      firstFailure?_own (by decide), firstFailure?_append, ih, List.flatMap_cons, firstFailure?_append]

theorem blockNames_append (front back : List Stmt) :
    blockNames (front ++ back) = blockNames front ++ blockNames back := by
  induction front with
  | nil => rfl
  | cons stmt front ih => rw [List.cons_append, blockNames, blockNames, ih, List.append_assoc]

/-- Wiring checks the declared actions. -/
theorem firstFailure?_wiring (form : Form) : firstFailure? (blockNames (wiring form)) = firstFailure? form.actions := by
  have hvalidate : ∀ member rest, firstFailure? (stmtNames (wireValidate (.field targetVar member)) ++ rest) =
      (firstFailure? [member]).or (firstFailure? rest) := by
    intro member rest
    have hnames : stmtNames (wireValidate (.field targetVar member)) =
        [setName, targetName] ++ ([member] ++ [targetName, validateListenerName]) := rfl
    rw [hnames, firstFailure?_append, firstFailure?_append, firstFailure?_ownNames _ (by decide), Option.none_or,
      firstFailure?_append, firstFailure?_ownNames [targetName, validateListenerName] (by decide),
      Option.or_none]
  have hclear : ∀ member rest, firstFailure? (stmtNames (wireClear (.field targetVar member)) ++ rest) =
      (firstFailure? [member]).or (firstFailure? rest) := by
    intro member rest
    have hnames : stmtNames (wireClear (.field targetVar member)) =
        [setName, targetName] ++ ([member] ++ [clearListenerName]) := rfl
    rw [hnames, firstFailure?_append, firstFailure?_append, firstFailure?_ownNames _ (by decide), Option.none_or,
      firstFailure?_append, firstFailure?_ownNames [clearListenerName] (by decide), Option.or_none]
  have hself : firstFailure? (blockNames [constructSelf]) = none := firstFailure?_ownNames _ (by decide)
  unfold wiring Form.actions
  rw [blockNames_append, blockNames_append, firstFailure?_append, firstFailure?_append, hself, Option.or_none,
    firstFailure?_append]
  congr 1
  · cases form.validateAction with
    | none => rfl
    | some member => exact (hvalidate member []).trans (Option.or_none)
  · cases form.clearAction with
    | none => rfl
    | some member => exact (hclear member []).trans (Option.or_none)

/-- A direct constructor checks the targets of its descriptors and the declared actions. -/
theorem firstFailure?_directConstructor (form : Form) (ds : List Descriptor) :
    firstFailure? (methodNames (directConstructor form ds)) =
      firstFailure? (ds.flatMap Descriptor.targets ++ form.actions) := by
  have hnames : methodNames (directConstructor form ds) =
      ["new", targetName, setName] ++
        (blockNames (ds.map addValidator) ++ ([setName, setName] ++ blockNames (wiring form))) := by
    unfold methodNames
    rw [body_directConstructor, building, List.cons_append, blockNames, blockNames_append, blockNames]
    rfl
  rw [hnames, firstFailure?_append, firstFailure?_ownNames _ (by decide), Option.none_or, firstFailure?_append,
    firstFailure?_addValidators, firstFailure?_append, firstFailure?_ownNames [setName, setName] (by decide),
    Option.none_or, firstFailure?_wiring, ← firstFailure?_append]

/-- A validating listener checks the callbacks, the one for success first. -/
theorem firstFailure?_validateListener (form : Form) :
    firstFailure? (methodNames (validateListener form)) =
      firstFailure? (form.onSuccess :: form.onError.toList.map ErrorCallback.method) := by
  have hreaction : firstFailure? (blockNames (errorReaction form)) =
      firstFailure? (form.onError.toList.map ErrorCallback.method) := by
    unfold errorReaction
    cases form.onError with
    | none => rfl
    | some callback =>
      obtain ⟨method, arity⟩ := callback
      cases arity with
      | bare =>
        have hnames : blockNames [.eval (.method targetVar method [])] = targetName :: [method] := rfl
        exact (congrArg firstFailure? hnames).trans (firstFailure?_own (by decide) _)
      | withErrors =>
        have hnames : blockNames [.eval (.method targetVar method [.ref (.method setVar "errors" [])])] =
            targetName :: ([method] ++ [setName, "errors"]) := rfl
        refine (congrArg firstFailure? hnames).trans ?_
        rw [firstFailure?_own (by decide), firstFailure?_append,
          firstFailure?_ownNames [setName, "errors"] (by decide), Option.or_none]
        rfl
  have hnames : methodNames (validateListener form) =
      [validateListenerName, setName, buttonName, targetName, buttonName, setName, "is_valid", targetName] ++
        form.onSuccess :: blockNames (errorReaction form) := by
    simp [methodNames, validateListener, blockNames, stmtNames, exprNames, exprsNames, setVar, targetVar]
  rw [hnames, firstFailure?_append, firstFailure?_ownNames _ (by decide), Option.none_or, firstFailure?_cons, hreaction,
    ← firstFailure?_cons]

theorem firstFailure?_clearListener : firstFailure? (methodNames clearListener) = none :=
  firstFailure?_ownNames _ (by decide)

theorem firstFailure?_entryPoint (withBinding : Bool) :
    firstFailure? (methodNames (entryPoint withBinding)) = none := by
  cases withBinding <;> exact firstFailure?_ownNames _ (by decide)

theorem firstFailure?_reflectiveConstructor : firstFailure? (methodNames reflectiveConstructor) = none :=
  firstFailure?_ownNames _ (by decide)

end WiringUnit

/-! ## Names that a form brings in -/

namespace Form

/-- **Members written** for a form: the targets of its descriptors and the declared actions. A reflective unit finds
its elements by itself and writes none. -/
def memberNames (form : Form) (options : Options) : List String :=
  match form.variant options with
  | .direct => form.descriptors.flatMap Descriptor.targets ++ form.actions
  | .reflective => []

/-- **Callbacks written** for a form, if its unit has a validating listener. -/
def callbackNames (form : Form) (options : Options) : List String :=
  if form.validateAction.isSome = true ∨ form.variant options = .reflective then
    form.onSuccess :: form.onError.toList.map ErrorCallback.method
  else []

end Form

/-- **Text that the code of a form holds** as a path or as an identifier. -/
inductive WrittenText where
  | path (text : String)
  | identifier (text : String)
  deriving DecidableEq, Repr

namespace WrittenText

/-- **It can be read** as what it is. -/
def isReadable : WrittenText → Bool
  | path text => (path? text).isSome
  | identifier text => (identifier? text).isSome

/-- **Error** that names it. -/
def error : WrittenText → CodeError
  | path text => .invalidPath text
  | identifier text => .invalidIdentifier text

end WrittenText

/-- **Texts written** for a form, in the order in which they are checked: the runtime's path, the host's path, the
name of the unit, the members, the callbacks. -/
def Form.writtenTexts (form : Form) (options : Options) : List WrittenText :=
  .path options.runtimePath :: .path form.host :: .identifier (form.unitName options) ::
    (form.memberNames options ++ form.callbackNames options).map .identifier

namespace WiringUnit

theorem firstFailure?_names (form : Form) (options : Options) :
    firstFailure? (ofForm form form.descriptors options).names =
      firstFailure? (form.unitName options :: (form.memberNames options ++ form.callbackNames options)) := by
  have hnames : (ofForm form form.descriptors options).names = form.unitName options :: setName ::
      (ofForm form form.descriptors options).methods.flatMap methodNames := rfl
  have hset : setName ∈ ownNames := by decide
  rw [hnames, firstFailure?_cons, firstFailure?_own hset, firstFailure?_cons]
  refine congrArg (Option.or _) ?_
  unfold ofForm Form.memberNames Form.callbackNames
  cases form.variant options with
  | direct =>
    dsimp only [directMethods]
    rw [List.flatMap_cons, firstFailure?_append, firstFailure?_directConstructor, firstFailure?_append
      (form.descriptors.flatMap Descriptor.targets ++ form.actions)]
    refine congrArg (Option.or _) ?_
    rw [List.flatMap_append, List.flatMap_append, firstFailure?_append, firstFailure?_append, List.flatMap_singleton,
      firstFailure?_entryPoint, Option.or_none]
    have hclear : firstFailure? ((if form.clearAction.isSome then [clearListener] else []).flatMap methodNames) =
        none := by
      cases form.clearAction with
      | none => rfl
      | some member => exact firstFailure?_clearListener
    rw [hclear, Option.or_none]
    cases hvalidate : form.validateAction with
    | none => simp [firstFailure?_nil]
    | some member => simpa using firstFailure?_validateListener form
  | reflective =>
    dsimp only [reflectiveMethods]
    rw [List.flatMap_cons, firstFailure?_append, firstFailure?_reflectiveConstructor, Option.none_or, List.flatMap_cons,
      firstFailure?_append, firstFailure?_validateListener, List.flatMap_cons, firstFailure?_append,
      firstFailure?_clearListener, Option.none_or, List.flatMap_singleton, firstFailure?_entryPoint, Option.or_none]
    simp

theorem failure?_pathCode (text : String) :
    failure? (pathCode text) = if (path? text).isSome then none else some (.invalidPath text) := by
  unfold pathCode
  cases path? text <;> rfl

theorem failure?_nameCode (text : String) :
    failure? (nameCode text) = if (identifier? text).isSome then none else some (.invalidIdentifier text) := by
  unfold nameCode
  cases identifier? text <;> rfl

end WiringUnit

/-! ## Failures of expansion -/

/-- **First unreadable text**, as the error that names it. -/
def firstUnreadable? (texts : List WrittenText) : Option CodeError :=
  (texts.find? fun t => !t.isReadable).map WrittenText.error

theorem firstUnreadable?_cons (t : WrittenText) (texts : List WrittenText) :
    firstUnreadable? (t :: texts) = (if t.isReadable then none else some t.error).or (firstUnreadable? texts) := by
  unfold firstUnreadable?
  rw [List.find?_cons]
  cases t.isReadable <;> rfl

theorem firstUnreadable?_identifiers (names : List String) :
    firstUnreadable? (names.map .identifier) = WiringUnit.firstFailure? names := by
  induction names with
  | nil => rfl
  | cons name names ih =>
    rw [List.map_cons, firstUnreadable?_cons, ih, WiringUnit.firstFailure?_cons, WiringUnit.failure?_nameCode]
    rfl

/-- Writing the unit of a form fails with the first text of the form that cannot be read. -/
theorem failure?_code_ofForm (form : Form) (options : Options) :
    failure? ((WiringUnit.ofForm form form.descriptors options).code options.runtimePath) =
      firstUnreadable? (form.writtenTexts options) := by
  have hhost : (WiringUnit.ofForm form form.descriptors options).host = form.host := rfl
  unfold Form.writtenTexts
  rw [WiringUnit.failure?_code, hhost, WiringUnit.firstFailure?_names, WiringUnit.failure?_pathCode,
    WiringUnit.failure?_pathCode, firstUnreadable?_cons, firstUnreadable?_cons, ← List.map_cons,
    firstUnreadable?_identifiers]
  rfl

/-- **How expansion fails**: with what the check of the form reports, or else with the first unreadable text. -/
theorem Form.failure?_expand (form : Form) (options : Options) :
    failure? (form.expand options) =
      ((failure? form.check).map ExpandError.form).or
        ((firstUnreadable? (form.writtenTexts options)).map ExpandError.code) := by
  unfold Form.expand Form.compile
  cases form.check with
  | error e => rfl
  | ok _ =>
    change failure? (do
      let code ← ((WiringUnit.ofForm form form.descriptors options).code options.runtimePath).mapError ExpandError.code
      pure (Lexeme.text code)) = _
    rw [failure?_bind_pure, failure?_mapError, failure?_code_ofForm]
    rfl

/-- **When a form expands**: it passes its check and all its written texts can be read. -/
theorem Form.exists_expand_iff (form : Form) (options : Options) :
    (∃ text, form.expand options = .ok text) ↔
      form.check = .ok () ∧ firstUnreadable? (form.writtenTexts options) = none := by
  rw [← failure?_eq_none_iff, form.failure?_expand, Option.or_eq_none_iff, Option.map_eq_none_iff,
    Option.map_eq_none_iff, failure?_eq_none_iff]
  refine and_congr_left' ⟨?_, fun h => ⟨(), h⟩⟩
  rintro ⟨u, hu⟩
  exact hu

/-- **Exactly when expansion fails.** A form that breaks its contract fails with that violation. Any other fails with
the error that names the first of its written texts that cannot be read, and succeeds when all of them can. So what is
not written does not matter: forms with the same written texts fail alike. -/
theorem Form.expand_error_iff (form : Form) (options : Options) :
    (∀ e, form.check = .error e → form.expand options = .error (.form e)) ∧
      (form.check = .ok () →
        (∀ e, form.expand options = .error e ↔
          ∃ t, (form.writtenTexts options).find? (fun t => !t.isReadable) = some t ∧ e = .code t.error) ∧
        ((∃ code, form.expand options = .ok code) ↔ ∀ t ∈ form.writtenTexts options, t.isReadable = true) ∧
        ∀ (form' : Form) (options' : Options), form'.check = .ok () →
          form'.writtenTexts options' = form.writtenTexts options →
          ∀ e, form'.expand options' = .error e ↔ form.expand options = .error e) := by
  have hfailure : ∀ form : Form, form.check = .ok () → ∀ options,
      failure? (form.expand options) = (firstUnreadable? (form.writtenTexts options)).map ExpandError.code := by
    intro form hcheck options
    rw [form.failure?_expand, hcheck]
    rfl
  refine ⟨?_, fun hcheck => ⟨?_, ?_, ?_⟩⟩
  · intro e he
    rw [← failure?_eq_some_iff, form.failure?_expand, he]
    rfl
  · intro e
    rw [← failure?_eq_some_iff, hfailure form hcheck]
    unfold firstUnreadable?
    rw [Option.map_map, Option.map_eq_some_iff]
    exact exists_congr fun t => and_congr_right' eq_comm
  · rw [← failure?_eq_none_iff, hfailure form hcheck]
    unfold firstUnreadable?
    rw [Option.map_map, Option.map_eq_none_iff, List.find?_eq_none]
    simp
  · intro form' options' hcheck' hsame e
    rw [← failure?_eq_some_iff, ← failure?_eq_some_iff, hfailure form' hcheck', hfailure form hcheck, hsame]

/-- A form with names that cannot be read: those of a confirmation without a partner and of callbacks that nothing
calls. -/
def unwritten : Form where
  host := "Unwritten"
  fields := [{ name := "not a name", rule := .confirmEmail }]
  clearAction := some "reset"
  onSuccess := "on valid"
  onError := some ⟨"on error", .bare⟩

/-- The form above expands all the same. -/
theorem expand_unwritten : unwritten.check = .ok () ∧ ∃ code, unwritten.expand {} = .ok code := by
  have hcheck : unwritten.check = .ok () := rfl
  have hreadable : ∀ t ∈ unwritten.writtenTexts {}, t.isReadable = true := by decide +kernel
  exact ⟨hcheck, (((unwritten.expand_error_iff {}).2 hcheck).2.1).2 hreadable⟩

end FormWiring
