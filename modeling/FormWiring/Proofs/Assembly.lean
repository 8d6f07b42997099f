import FormWiring.Proofs.Wiring

/-!
# How a constructor carries its plan

The constructor of a direct unit adds one validator a descriptor, then shares the set, then wires the elements. An
addition mixes the inputs of a validator, its message and its other arguments in one list; but the inputs stand in
front and the message ends them, so the descriptor is read back from the list, and no two descriptors are added alike.

Main statements: `Descriptor.ofConstruction?_validatorExpr`, `Form.compile_carriesPlan`.
-/

set_option autoImplicit false

namespace FormWiring

open WiringUnit

/-! ## Constructions read back -/

/-- What is written one by one is read back one by one. -/
theorem mapM_map_of_inverse {α β : Type} {read : β → Option α} {write : α → β}
    (h : ∀ a, read (write a) = some a) (l : List α) : (l.map write).mapM read = some l := by
  have hread : read ∘ write = fun a => pure a := funext h
  rw [List.mapM_map, hread, List.mapM_pure, List.map_id']
  rfl

namespace Descriptor

/-- **Argument that an expression stands for**, if it stands for one. -/
def argOf? : Expr → Option Arg
  | .bool value => some (.bool value)
  | .int value => some (.int value)
  | .text value => some (.text value)
  | .message source => some (.message source)
  | _ => none

/-- **Targets at the front** of arguments, and the other arguments. -/
def splitTargets : List Expr → List String × List Expr
  | .input member :: rest =>
    let (members, others) := splitTargets rest
    (member :: members, others)
  | rest => ([], rest)

/-- **Descriptor that a construction stands for**: the targets, the message that ends them, and the arguments after
it. -/
def ofConstruction? : Expr → Option Descriptor
  | .newValidator kind args =>
    match splitTargets args with
    | (targets, .message source :: rest) => (rest.mapM argOf?).map fun args => ⟨kind, targets, source, args⟩
    | _ => none
  | _ => none

theorem argOf?_argExpr (arg : Arg) : argOf? (argExpr arg) = some arg := by
  cases arg <;> rfl

theorem splitTargets_map_input (targets : List String) (source : MessageSource) (rest : List Expr) :
    splitTargets (targets.map .input ++ .message source :: rest) = (targets, .message source :: rest) := by
  induction targets with
  | nil => rfl
  | cons target targets ih => rw [List.map_cons, List.cons_append, splitTargets, ih]

/-- **A construction gives its descriptor back**, whatever its targets and arguments are. -/
theorem ofConstruction?_validatorExpr (d : Descriptor) : ofConstruction? (validatorExpr d) = some d := by
  unfold ofConstruction? validatorExpr
  dsimp only
  -- the message is no input, so the targets end where it stands
  rw [splitTargets_map_input]
  dsimp only
  rw [mapM_map_of_inverse argOf?_argExpr]
  rfl

/-- **Descriptor of an addition**, given its arguments: there is one, and it is a construction. -/
def ofAddition? : List Expr → Option Descriptor
  | [e] => ofConstruction? e
  | _ => none

end Descriptor

/-! ## What statements do -/

namespace WiringUnit

mutual

/-- **Expressions of a statement**, those of the statements inside it included, in the order of the text. -/
def stmtExprs : Stmt → List Expr
  | .bind _ _ value => [value]
  | .eval value => [value]
  | .cond condition thenBranch elseBranch => condition :: (blockExprs thenBranch ++ blockExprs elseBranch)
  | .ifSome _ value body => value :: blockExprs body
  | .forEach _ iterable body => iterable :: blockExprs body
  | .onClick element _ body => element :: blockExprs body
  | .result value => [value]

/-- **Expressions of statements** in order. -/
def blockExprs : List Stmt → List Expr
  | [] => []
  | stmt :: rest => stmtExprs stmt ++ blockExprs rest

end

/-- **Arguments of an addition** of one validator. -/
def addition? : Expr → Option (List Expr)
  | .method _ name args => if name = "add_validator" then some args else none
  | _ => none

/-- **Function that is called**, with its arguments. -/
def call? : Expr → Option (Callee × List Expr)
  | .call callee args => some (callee, args)
  | _ => none

/-- **Additions of statements**: the arguments of each, in order. -/
def additions (body : List Stmt) : List (List Expr) :=
  (blockExprs body).filterMap addition?

/-- **Calls of statements**: sharing of the set, wiring of elements, selection of them. -/
def calls (body : List Stmt) : List (Callee × List Expr) :=
  (blockExprs body).filterMap call?

theorem blockExprs_append (front back : List Stmt) :
    blockExprs (front ++ back) = blockExprs front ++ blockExprs back := by
  induction front with
  | nil => rfl
  | cons stmt front ih => rw [List.cons_append, blockExprs, blockExprs, ih, List.append_assoc]

theorem additions_append (front back : List Stmt) : additions (front ++ back) = additions front ++ additions back := by
  unfold additions
  rw [blockExprs_append, List.filterMap_append]

theorem calls_append (front back : List Stmt) : calls (front ++ back) = calls front ++ calls back := by
  unfold calls
  rw [blockExprs_append, List.filterMap_append]

theorem additions_cons (stmt : Stmt) (rest : List Stmt) :
    additions (stmt :: rest) = additions [stmt] ++ additions rest :=
  additions_append [stmt] rest

theorem calls_cons (stmt : Stmt) (rest : List Stmt) : calls (stmt :: rest) = calls [stmt] ++ calls rest :=
  calls_append [stmt] rest

/-! ## Phases of a direct constructor -/

/-- **Building**: the set is made, and the validators are added. -/
def building (ds : List Descriptor) : List Stmt :=
  .bind setName (!ds.isEmpty) .newSet :: ds.map addValidator

/-- **Wiring**: the elements of the declared actions get their listeners, and the unit is complete. -/
def wiring (form : Form) : List Stmt :=
  form.validateAction.toList.map (fun member => wireValidate (.field targetVar member)) ++
    (form.clearAction.toList.map (fun member => wireClear (.field targetVar member)) ++ [constructSelf])

/-- **A direct constructor** builds, shares the set and wires, in this order. -/
theorem body_directConstructor (form : Form) (ds : List Descriptor) :
    (directConstructor form ds).body = building ds ++ shareSet :: wiring form := rfl

/-- Building adds the validators of the descriptors, one each and in order. -/
theorem additions_building (ds : List Descriptor) :
    additions (building ds) = ds.map fun d => [validatorExpr d] := by
  unfold building
  rw [additions_cons]
  induction ds with
  | nil => rfl
  | cons d ds ih =>
    rw [List.map_cons, additions_cons, List.map_cons, ← ih]
    rfl

/-- Building calls nothing: neither is the set shared nor is an element wired. -/
theorem calls_building (ds : List Descriptor) : calls (building ds) = [] := by
  unfold building
  rw [calls_cons]
  induction ds with
  | nil => rfl
  | cons d ds ih =>
    rw [List.map_cons, calls_cons (addValidator d)]
    exact ih

/-- Wiring adds nothing. -/
theorem additions_wiring (form : Form) : additions (wiring form) = [] := by
  unfold wiring
  cases form.validateAction <;> cases form.clearAction <;> rfl

/-! ## Plans carried -/

/-- **Constructor of descriptors**: its additions give them back, all made before the set is shared and before anything
is called. -/
structure Constructs (body : List Stmt) (ds : List Descriptor) : Prop where
  readsBack : (additions body).mapM Descriptor.ofAddition? = some ds
  phases : ∃ front back, body = front ++ shareSet :: back ∧ calls front = [] ∧ additions back = []

/-- **Unit that carries a plan.** The variants have different constructors: the direct one holds the descriptors, the
reflective one adds no validator by itself. -/
structure CarriesPlan (unit : WiringUnit) (plan : Plan) : Prop where
  name : unit.name = plan.unit
  variant : unit.variant = plan.variant
  direct : unit.variant = .direct →
    ∃ new, unit.method? "new" = some new ∧ Constructs new.body plan.descriptors
  reflective : unit.variant = .reflective →
    plan.descriptors = [] ∧ ∃ new, unit.method? "new" = some new ∧ additions new.body = []

/-- A direct constructor holds the descriptors it was made from. -/
theorem constructs_directConstructor (form : Form) (ds : List Descriptor) :
    Constructs (directConstructor form ds).body ds where
  readsBack := by
    -- of the three phases only the building adds
    have hshare : additions [shareSet] = [] := rfl
    rw [body_directConstructor, additions_append, additions_cons, additions_building, hshare, additions_wiring,
      List.append_nil, List.append_nil]
    have hread : ∀ d, Descriptor.ofAddition? [validatorExpr d] = some d := Descriptor.ofConstruction?_validatorExpr
    exact mapM_map_of_inverse hread ds
  phases := ⟨building ds, wiring form, body_directConstructor form ds, calls_building ds, additions_wiring form⟩

theorem method?_new_reflective {form : Form} {ds : List Descriptor} {options : Options}
    (hreflective : form.variant options = .reflective) :
    (ofForm form ds options).method? "new" = some reflectiveConstructor := by
  unfold method? ofForm
  rw [hreflective]
  rfl

/-- A form without fields has nothing to resolve. -/
theorem descriptors_of_reflective {form : Form} {options : Options} (hreflective : form.variant options = .reflective) :
    form.descriptors = [] := by
  have hfields : form.fields = [] := by
    unfold Form.variant at hreflective
    by_cases h : (options.dataBinding && form.fields.isEmpty) = true
    · exact List.isEmpty_iff.1 (Bool.and_eq_true_iff.1 h).2
    · rw [if_neg h] at hreflective
      cases hreflective
  unfold Form.descriptors
  rw [hfields]
  rfl

theorem carriesPlan_ofForm (form : Form) (options : Options) :
    (ofForm form form.descriptors options).CarriesPlan
      ⟨form.unitName options, form.variant options, form.descriptors⟩ where
  name := rfl
  variant := rfl
  direct := by
    intro hdirect
    exact ⟨_, Execution.method?_new hdirect, constructs_directConstructor form form.descriptors⟩
  reflective := by
    intro hreflective
    exact ⟨descriptors_of_reflective hreflective, _, method?_new_reflective hreflective, rfl⟩

end WiringUnit

/-- **A form compiles** exactly when it passes its check, and to one unit only. -/
theorem Form.compile_eq_ok_iff {form : Form} {options : Options} {unit : WiringUnit} :
    form.compile options = .ok unit ↔ form.check = .ok () ∧ unit = .ofForm form form.descriptors options := by
  unfold Form.compile
  cases form.check with
  | error e =>
    constructor
    · intro h
      cases h
    · rintro ⟨h, -⟩
      cases h
  | ok _ =>
    constructor
    · intro h
      cases h
      exact ⟨rfl, rfl⟩
    · rintro ⟨-, rfl⟩
      rfl

/-- **Plan and unit agree.** Planning a form and compiling it break the contract alike, with one violation; or both
succeed, and the unit carries the plan. -/
theorem Form.compile_carriesPlan (form : Form) (options : Options) :
    (∃ e, form.plan options = .error e ∧ form.compile options = .error e) ∨
      ∃ plan unit, form.plan options = .ok plan ∧ form.compile options = .ok unit ∧ unit.CarriesPlan plan := by
  unfold Form.plan Form.compile
  cases form.check with
  | error e => exact .inl ⟨e, rfl, rfl⟩
  | ok _ => exact .inr ⟨_, _, rfl, rfl, WiringUnit.carriesPlan_ofForm form options⟩

end FormWiring
