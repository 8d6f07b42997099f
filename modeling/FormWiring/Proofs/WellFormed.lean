import FormWiring.Proofs.Assembly

/-!
# Compiled units are well formed

A unit is put together from pieces: which listeners it has is decided in one place, which of them its constructor
calls in another, and a click handler sees less than the method that installs it. Whatever the form declares, the
pieces fit. Every name that is used is bound where it is used, every call of the unit's own methods finds its method,
the set takes validators only until it is shared, and no expression needs brackets to keep its receiver.

Expressions are looked at as the list of all their parts, and statements through the expressions they hold at any
depth; a property of all parts of a block is then one of each of its statements.

Main statement: `Form.compile_wellFormed`.
-/

set_option autoImplicit false

namespace FormWiring

open WiringUnit

/-! ## Parts of expressions -/

namespace Expr

mutual

/-- **Parts of an expression**: itself and every expression inside it. -/
def parts : Expr → List Expr
  | .var name => [.var name]
  | .field base name => .field base name :: parts base
  | .bool value => [.bool value]
  | .int value => [.int value]
  | .text value => [.text value]
  | .message source => [.message source]
  | .input member => [.input member]
  | .ref inner => .ref inner :: parts inner
  | .newSet => [.newSet]
  | .newValidator kind args => .newValidator kind args :: partsAll args
  | .call callee args => .call callee args :: partsAll args
  | .method receiver name args => .method receiver name args :: (parts receiver ++ partsAll args)
  | .construct fields => .construct fields :: partsEntries fields

/-- **Parts of expressions** in a row. -/
def partsAll : List Expr → List Expr
  | [] => []
  | e :: es => parts e ++ partsAll es

/-- **Parts of the entries** of a constructed value. -/
def partsEntries : List (String × Expr) → List Expr
  | [] => []
  | (_, e) :: rest => parts e ++ partsEntries rest

end

theorem partsAll_eq_flatMap (es : List Expr) : partsAll es = es.flatMap parts := by
  induction es with
  | nil => rfl
  | cons e es ih => rw [partsAll, List.flatMap_cons, ih]

/-- **Name that an expression uses by itself**, if it uses one. Input handles and resource texts are looked up on the
host. -/
def usedName? : Expr → Option String
  | .var name => some name
  | .input _ => some targetName
  | .message (.resource _) => some targetName
  | _ => none

/-- **Names used** in an expression. -/
def uses (e : Expr) : List String :=
  e.parts.filterMap usedName?

/-- **What an access is made on**: the base of a field, the receiver of a method. -/
def receiver? : Expr → Option Expr
  | .field base _ => some base
  | .method receiver _ _ => some receiver
  | _ => none

/-- **Loose expressions**: written with a mark in front that binds less than an access does. -/
def IsLoose : Expr → Prop
  | .ref _ => True
  | .int value => value.toInt < 0
  | _ => False

/-- **Addition to the set**: a call of either adding method on the variable of the set. -/
def IsAddition : Expr → Prop
  | .method (.var receiver) name _ => receiver = setName ∧ (name = "add_validator" ∨ name = "add_validators")
  | _ => False

end Expr

/-! ## Scopes -/

namespace WiringUnit

/-- **Names of a click handler**: the set it holds, and the host when it captures it. -/
def handlerNames (capturesTarget : Bool) : List String :=
  setName :: if capturesTarget then [targetName] else []

/-- **Names bound** for the statements after one. -/
def boundAfter : Stmt → List String
  | .bind name _ _ => [name]
  | _ => []

mutual

/-- **Statement in scope**: every name it uses is bound where it uses it. A handler takes what it holds from the scope
it is installed in, and its body sees nothing else. -/
def StmtScoped (scope : List String) : Stmt → Prop
  | .bind _ _ value => value.uses ⊆ scope
  | .eval value => value.uses ⊆ scope
  | .cond condition thenBranch elseBranch =>
    condition.uses ⊆ scope ∧ BlockScoped scope thenBranch ∧ BlockScoped scope elseBranch
  | .ifSome binding value body => value.uses ⊆ scope ∧ BlockScoped (binding :: scope) body
  | .forEach binding iterable body => iterable.uses ⊆ scope ∧ BlockScoped (binding :: scope) body
  | .onClick element capturesTarget body =>
    element.uses ⊆ scope ∧ handlerNames capturesTarget ⊆ scope ∧ BlockScoped (handlerNames capturesTarget) body
  | .result value => value.uses ⊆ scope

/-- **Statements in scope**, each with the names that the ones before it bind. -/
def BlockScoped (scope : List String) : List Stmt → Prop
  | [] => True
  | stmt :: rest => StmtScoped scope stmt ∧ BlockScoped (boundAfter stmt ++ scope) rest

end

mutual

/-- **Names that a statement binds**, at any depth. -/
def stmtBinders : Stmt → List String
  | .bind name _ _ => [name]
  | .eval _ => []
  | .cond _ thenBranch elseBranch => blockBinders thenBranch ++ blockBinders elseBranch
  | .ifSome binding _ body => binding :: blockBinders body
  | .forEach binding _ body => binding :: blockBinders body
  | .onClick _ _ body => blockBinders body
  | .result _ => []

/-- **Names that statements bind**, at any depth. -/
def blockBinders : List Stmt → List String
  | [] => []
  | stmt :: rest => stmtBinders stmt ++ blockBinders rest

end

/-- **Parts of statements**: those of all expressions they hold, at any depth. -/
def blockParts (body : List Stmt) : List Expr :=
  (blockExprs body).flatMap Expr.parts

/-- **No addition** is made by statements. -/
def AddsNothing (body : List Stmt) : Prop :=
  ∀ e ∈ blockParts body, ¬ e.IsAddition

/-! ## Parts of a body -/

theorem blockParts_append (front back : List Stmt) :
    blockParts (front ++ back) = blockParts front ++ blockParts back := by
  unfold blockParts
  rw [blockExprs_append, List.flatMap_append]

theorem blockParts_cons (stmt : Stmt) (rest : List Stmt) :
    blockParts (stmt :: rest) = (stmtExprs stmt).flatMap Expr.parts ++ blockParts rest := by
  unfold blockParts
  rw [blockExprs, List.flatMap_append]

theorem parts_argExpr (arg : Arg) : (argExpr arg).parts = [argExpr arg] := by
  cases arg <;> rfl

/-- Expressions without any inside them are their own parts. -/
theorem flatMap_parts_of_atomic {es : List Expr} (h : ∀ e ∈ es, e.parts = [e]) : es.flatMap Expr.parts = es := by
  induction es with
  | nil => rfl
  | cons e es ih =>
    rw [List.flatMap_cons, h e List.mem_cons_self, ih fun e he => h e (List.mem_cons_of_mem _ he)]
    rfl

/-- **Parts of a construction**: itself and its arguments. -/
theorem parts_validatorExpr (d : Descriptor) :
    (validatorExpr d).parts =
      validatorExpr d :: (d.targets.map .input ++ .message d.message :: d.args.map argExpr) := by
  have hatomic : ∀ e ∈ d.targets.map Expr.input ++ .message d.message :: d.args.map argExpr, e.parts = [e] := by
    intro e he
    rcases List.mem_append.1 he with htarget | hrest
    · obtain ⟨member, -, rfl⟩ := List.mem_map.1 htarget
      rfl
    · rcases List.mem_cons.1 hrest with rfl | harg
      · rfl
      · obtain ⟨arg, -, rfl⟩ := List.mem_map.1 harg
        exact parts_argExpr arg
  unfold validatorExpr
  rw [Expr.parts, Expr.partsAll_eq_flatMap, flatMap_parts_of_atomic hatomic]

/-- Parts of an addition are the addition, the set, the construction and its arguments. -/
theorem mem_blockParts_addValidators {ds : List Descriptor} {e : Expr}
    (he : e ∈ blockParts (ds.map addValidator)) :
    e = setVar ∨ (∃ member, e = .input member) ∨ (∃ arg, e = argExpr arg) ∨
      ∃ d ∈ ds, e = validatorExpr d ∨ e = .method setVar "add_validator" [validatorExpr d] := by
  induction ds with
  | nil => cases he
  | cons d ds ih =>
    rw [List.map_cons, blockParts_cons] at he
    rcases List.mem_append.1 he with hfirst | hrest
    · have hparts : (stmtExprs (addValidator d)).flatMap Expr.parts =
          .method setVar "add_validator" [validatorExpr d] :: setVar :: (validatorExpr d).parts := by
        simp [addValidator, stmtExprs, Expr.parts, Expr.partsAll, setVar]
      rw [hparts, parts_validatorExpr] at hfirst
      simp only [List.mem_cons, List.mem_append, List.mem_map] at hfirst
      rcases hfirst with rfl | rfl | rfl | ⟨member, -, rfl⟩ | rfl | ⟨arg, -, rfl⟩
      · exact .inr (.inr (.inr ⟨d, List.mem_cons_self, .inr rfl⟩))
      · exact .inl rfl
      · exact .inr (.inr (.inr ⟨d, List.mem_cons_self, .inl rfl⟩))
      · exact .inr (.inl ⟨member, rfl⟩)
      · exact .inr (.inr (.inl ⟨.message d.message, rfl⟩))
      · exact .inr (.inr (.inl ⟨arg, rfl⟩))
    · rcases ih hrest with hset | hinput | harg | ⟨d', hd', hwhole⟩
      · exact .inl hset
      · exact .inr (.inl hinput)
      · exact .inr (.inr (.inl harg))
      · exact .inr (.inr (.inr ⟨d', List.mem_cons_of_mem d hd', hwhole⟩))

/-! ## Adding validators -/

/-- Additions use the set and the host only. -/
theorem uses_addValidator (d : Descriptor) :
    (Expr.method setVar "add_validator" [validatorExpr d]).uses ⊆ [setName, targetName] := by
  intro name hname
  obtain ⟨e, he, hused⟩ := List.mem_filterMap.1 hname
  have hmem : e ∈ blockParts ([d].map addValidator) := by
    simpa [blockParts, blockExprs, stmtExprs, addValidator] using he
  rcases mem_blockParts_addValidators hmem with rfl | ⟨member, rfl⟩ | ⟨arg, rfl⟩ | ⟨d', -, rfl | rfl⟩
  · cases hused
    exact List.mem_cons_self
  · cases hused
    exact List.mem_cons_of_mem setName List.mem_cons_self
  · -- of the arguments only a text from a resource uses a name
    cases arg with
    | message source =>
      cases source with
      | resource id =>
        cases hused
        exact List.mem_cons_of_mem setName List.mem_cons_self
      | literal text => cases hused
    | bool value => cases hused
    | int value => cases hused
    | text value => cases hused
  · cases hused
  · cases hused

/-- Additions stand wherever the set and the host are bound, and bind nothing. -/
theorem blockScoped_addValidators {scope : List String} (hset : setName ∈ scope) (htarget : targetName ∈ scope)
    (ds : List Descriptor) {rest : List Stmt} (hrest : BlockScoped scope rest) :
    BlockScoped scope (ds.map addValidator ++ rest) := by
  induction ds with
  | nil => exact hrest
  | cons d ds ih =>
    rw [List.map_cons, List.cons_append, BlockScoped, addValidator, StmtScoped]
    refine ⟨?_, ih⟩
    intro name hname
    rcases List.mem_cons.1 (uses_addValidator d hname) with rfl | hlast
    · exact hset
    · rw [List.mem_singleton.1 hlast]
      exact htarget

theorem blockBinders_addValidators (ds : List Descriptor) : blockBinders (ds.map addValidator) = [] := by
  induction ds with
  | nil => rfl
  | cons d ds ih =>
    rw [List.map_cons, blockBinders, ih]
    rfl

/-- **Something is added** exactly when there is a descriptor. -/
theorem exists_isAddition_iff (ds : List Descriptor) :
    (∃ e ∈ blockParts (ds.map addValidator), e.IsAddition) ↔ ds ≠ [] := by
  cases ds with
  | nil => simp [blockParts, blockExprs]
  | cons d ds =>
    refine ⟨fun _ => List.cons_ne_nil d ds, fun _ => ?_⟩
    refine ⟨.method setVar "add_validator" [validatorExpr d], ?_, rfl, .inl rfl⟩
    rw [List.map_cons, blockParts_cons]
    exact List.mem_append_left _ List.mem_cons_self

/-! ## Well-formed units -/

/-- **Method of a name and a number of parameters.** -/
def Declares (unit : WiringUnit) (name : String) (arity : Nat) : Prop :=
  ∃ m ∈ unit.methods, m.name = name ∧ m.params.length = arity

/-- **Call that finds its method**: one of the unit's own with as many parameters as there are arguments. -/
def Resolves (unit : WiringUnit) : Expr → Prop
  | .call (.associated name) args => unit.Declares name args.length
  | _ => True

/-- **Phases of a body that fills the set and then shares it.** The set is bound twice, empty and then shared; what is
added to it is added in between, and it is mutable exactly when there is something to add. -/
structure Phases (body before during after : List Stmt) (isMutable : Bool) : Prop where
  split : body = before ++ .bind setName isMutable .newSet :: (during ++ shareSet :: after)
  boundTwice : setName ∉ blockBinders before ∧ setName ∉ blockBinders during ∧ setName ∉ blockBinders after
  quietBefore : AddsNothing before
  quietAfter : AddsNothing after
  mutable_iff : isMutable = true ↔ ∃ e ∈ blockParts during, e.IsAddition

/-- **Well-formed unit.** -/
structure WellFormed (unit : WiringUnit) : Prop where
  /-- Every name is bound where it is used. -/
  inScope : ∀ m ∈ unit.methods, BlockScoped (m.params.map TypedName.name) m.body
  /-- Every call of the unit's own methods finds one that takes its arguments. -/
  resolved : ∀ m ∈ unit.methods, ∀ e ∈ blockParts m.body, unit.Resolves e
  /-- Method names are different. -/
  nodup : (unit.methods.map Method.name).Nodup
  /-- The entry point alone is public. -/
  entry : unit.publicMethods.map Method.name = ["init"]
  /-- The constructor fills the set and then shares it. -/
  phases : ∃ new ∈ unit.methods, new.name = "new" ∧
    ∃ before during after isMutable, Phases new.body before during after isMutable
  /-- No other method adds to it. -/
  addsNothing : ∀ m ∈ unit.methods, m.name ≠ "new" → AddsNothing m.body
  /-- What an access is made on needs no brackets. -/
  tight : ∀ m ∈ unit.methods, ∀ e ∈ blockParts m.body, ∀ r, e.receiver? = some r → ¬ r.IsLoose

/-! ## Sound expressions -/

/-- **Sound part** of a unit: a call finds its method, and an access needs no brackets. -/
def Sound (unit : WiringUnit) : Expr → Prop
  | .call (.associated name) args => unit.Declares name args.length
  | .field base _ => ¬ base.IsLoose
  | .method receiver _ _ => ¬ receiver.IsLoose
  | _ => True

variable {unit : WiringUnit} {form : Form} {e : Expr}

theorem Sound.resolves (h : unit.Sound e) : unit.Resolves e := by
  cases e with
  | call callee args =>
    cases callee with
    | associated name => exact h
    | share => trivial
    | selectActions => trivial
  | _ => trivial

theorem Sound.tight (h : unit.Sound e) {r : Expr} (hr : e.receiver? = some r) : ¬ r.IsLoose := by
  cases e with
  | field base name =>
    cases hr
    exact h
  | method receiver name args =>
    cases hr
    exact h
  | _ => cases hr

/-- Additions are sound in every unit: the one access is on the set. -/
theorem sound_addValidators (unit : WiringUnit) (ds : List Descriptor) :
    ∀ e ∈ blockParts (ds.map addValidator), unit.Sound e := by
  intro e he
  rcases mem_blockParts_addValidators he with rfl | ⟨member, rfl⟩ | ⟨arg, rfl⟩ | ⟨d, -, rfl | rfl⟩
  · trivial
  · trivial
  · cases arg <;> trivial
  · trivial
  · exact id

/-! ## Method by method -/

/-- The wiring phase calls the listeners of the declared actions only. -/
theorem sound_wiring (hvalidate : form.validateAction.isSome = true → unit.Declares validateListenerName 3)
    (hclear : form.clearAction.isSome = true → unit.Declares clearListenerName 2) :
    ∀ e ∈ blockParts (wiring form), unit.Sound e := by
  have hwireValidate : ∀ member, unit.Declares validateListenerName 3 →
      ∀ e ∈ blockParts [wireValidate (.field targetVar member)], unit.Sound e := by
    intro member hdeclares
    simp [blockParts, blockExprs, stmtExprs, wireValidate, Expr.parts, Expr.partsAll, setVar, targetVar, Sound,
      Expr.IsLoose, hdeclares]
  have hwireClear : ∀ member, unit.Declares clearListenerName 2 →
      ∀ e ∈ blockParts [wireClear (.field targetVar member)], unit.Sound e := by
    intro member hdeclares
    simp [blockParts, blockExprs, stmtExprs, wireClear, Expr.parts, Expr.partsAll, setVar, targetVar, Sound,
      Expr.IsLoose, hdeclares]
  have hself : ∀ e ∈ blockParts [constructSelf], unit.Sound e := by
    simp [blockParts, blockExprs, stmtExprs, constructSelf, Expr.parts, Expr.partsEntries, setVar, Sound]
  unfold wiring
  intro e he
  rw [blockParts_append, blockParts_append] at he
  rcases List.mem_append.1 he with hfirst | hrest
  · cases hv : form.validateAction with
    | none =>
      rw [hv] at hfirst
      cases hfirst
    | some member =>
      rw [hv] at hfirst
      exact hwireValidate member (hvalidate (by rw [hv]; rfl)) e hfirst
  · rcases List.mem_append.1 hrest with hsecond | hlast
    · cases hc : form.clearAction with
      | none =>
        rw [hc] at hsecond
        cases hsecond
      | some member =>
        rw [hc] at hsecond
        exact hwireClear member (hclear (by rw [hc]; rfl)) e hsecond
    · exact hself e hlast

theorem blockScoped_wiring (form : Form) : BlockScoped [setName, setName, targetName] (wiring form) := by
  unfold wiring
  cases form.validateAction <;> cases form.clearAction <;>
    simp [BlockScoped, StmtScoped, boundAfter, wireValidate, wireClear, constructSelf, Expr.uses, Expr.parts,
      Expr.partsAll, Expr.partsEntries, List.filterMap_cons, Expr.usedName?, setVar, targetVar]

theorem addsNothing_wiring (form : Form) : AddsNothing (wiring form) ∧ setName ∉ blockBinders (wiring form) := by
  unfold wiring
  cases form.validateAction <;> cases form.clearAction <;>
    simp [AddsNothing, blockParts, blockExprs, stmtExprs, wireValidate, wireClear, constructSelf, Expr.parts,
      Expr.partsAll, Expr.partsEntries, setVar, targetVar, Expr.IsAddition, blockBinders, stmtBinders]

theorem phases_directConstructor (form : Form) (ds : List Descriptor) :
    Phases (directConstructor form ds).body [] (ds.map addValidator) (wiring form) (!ds.isEmpty) where
  split := body_directConstructor form ds
  boundTwice := by
    refine ⟨List.not_mem_nil, ?_, (addsNothing_wiring form).2⟩
    rw [blockBinders_addValidators]
    exact List.not_mem_nil
  quietBefore := by
    intro e he
    cases he
  quietAfter := (addsNothing_wiring form).1
  mutable_iff := by
    rw [exists_isAddition_iff]
    simp

theorem blockScoped_directConstructor (form : Form) (ds : List Descriptor) :
    BlockScoped [targetName] (directConstructor form ds).body := by
  have hset : setName ∈ [setName, targetName] := List.mem_cons_self
  have htarget : targetName ∈ [setName, targetName] := List.mem_cons_of_mem _ List.mem_cons_self
  rw [body_directConstructor]
  unfold building
  rw [List.cons_append, BlockScoped]
  refine ⟨by simp [StmtScoped, Expr.uses, Expr.parts, Expr.usedName?], ?_⟩
  refine blockScoped_addValidators hset htarget ds ?_
  rw [BlockScoped]
  refine ⟨?_, blockScoped_wiring form⟩
  simp [StmtScoped, shareSet, Expr.uses, Expr.parts, Expr.partsAll, List.filterMap_cons, Expr.usedName?, setVar]

theorem sound_directConstructor (ds : List Descriptor)
    (hvalidate : form.validateAction.isSome = true → unit.Declares validateListenerName 3)
    (hclear : form.clearAction.isSome = true → unit.Declares clearListenerName 2) :
    ∀ e ∈ blockParts (directConstructor form ds).body, unit.Sound e := by
  have hnew : ∀ e ∈ blockParts [.bind setName (!ds.isEmpty) .newSet], unit.Sound e := by
    simp [blockParts, blockExprs, stmtExprs, Expr.parts, Sound]
  have hshare : ∀ e ∈ blockParts [shareSet], unit.Sound e := by
    simp [blockParts, blockExprs, stmtExprs, shareSet, Expr.parts, Expr.partsAll, setVar, Sound]
  intro e he
  rw [body_directConstructor, building, List.cons_append, ← List.singleton_append, blockParts_append,
    blockParts_append, ← List.singleton_append, blockParts_append] at he
  rcases List.mem_append.1 he with h | h
  · exact hnew e h
  · rcases List.mem_append.1 h with h | h
    · exact sound_addValidators unit ds e h
    · rcases List.mem_append.1 h with h | h
      · exact hshare e h
      · exact sound_wiring hvalidate hclear e h

/-- The reflective constructor fills the set while it goes over the views. -/
theorem phases_reflectiveConstructor :
    ∃ before during after, Phases reflectiveConstructor.body before during after true := by
  refine ⟨reflectiveConstructor.body.take 1, (reflectiveConstructor.body.drop 2).take 4,
    reflectiveConstructor.body.drop 7, rfl, ?_, ?_, ?_, ?_⟩
  · decide
  · simp [AddsNothing, reflectiveConstructor, blockParts, blockExprs, stmtExprs, Expr.parts, Expr.partsAll,
      bindingVar, Expr.IsAddition]
  · simp [AddsNothing, reflectiveConstructor, blockParts, blockExprs, stmtExprs, Expr.parts, Expr.partsAll,
      Expr.partsEntries, setVar, targetVar, constructSelf, wireValidate, wireClear, Expr.IsAddition]
  · simp [reflectiveConstructor, blockParts, blockExprs, stmtExprs, Expr.parts, Expr.partsAll, setVar, bindingVar,
      Expr.IsAddition]

theorem blockScoped_reflectiveConstructor : BlockScoped [targetName, bindingName] reflectiveConstructor.body := by
  simp [reflectiveConstructor, BlockScoped, StmtScoped, boundAfter, shareSet, wireValidate, wireClear, constructSelf,
    Expr.uses, Expr.parts, Expr.partsAll, Expr.partsEntries, List.filterMap_cons, Expr.usedName?, setVar, targetVar,
    bindingVar]

theorem sound_reflectiveConstructor (hvalidate : unit.Declares validateListenerName 3)
    (hclear : unit.Declares clearListenerName 2) :
    ∀ e ∈ blockParts reflectiveConstructor.body, unit.Sound e := by
  simp [reflectiveConstructor, blockParts, blockExprs, stmtExprs, shareSet, wireValidate, wireClear, constructSelf,
    Expr.parts, Expr.partsAll, Expr.partsEntries, setVar, targetVar, bindingVar, Sound, Expr.IsLoose, hvalidate, hclear]

/-- A reaction to errors needs the host, and the set when it hands the errors on. -/
theorem blockScoped_errorReaction (form : Form) : BlockScoped [setName, targetName] (errorReaction form) := by
  unfold errorReaction
  split <;> simp [BlockScoped, StmtScoped, Expr.uses, Expr.parts, Expr.partsAll, List.filterMap_cons,
    Expr.usedName?, setVar, targetVar]

theorem sound_errorReaction (unit : WiringUnit) (form : Form) :
    ∀ e ∈ blockParts (errorReaction form), unit.Sound e ∧ ¬ e.IsAddition := by
  unfold errorReaction
  split <;> simp [blockParts, blockExprs, stmtExprs, Expr.parts, Expr.partsAll, setVar, targetVar, Sound,
    Expr.IsLoose, Expr.IsAddition, setName, targetName]

theorem blockScoped_validateListener (form : Form) :
    BlockScoped [setName, buttonName, targetName] (validateListener form).body := by
  unfold validateListener
  simp [BlockScoped, StmtScoped, handlerNames, Expr.uses, Expr.parts, Expr.partsAll, List.filterMap_cons,
    Expr.usedName?, setVar, targetVar, blockScoped_errorReaction]

theorem sound_validateListener (unit : WiringUnit) (form : Form) :
    ∀ e ∈ blockParts (validateListener form).body, unit.Sound e ∧ ¬ e.IsAddition := by
  have hparts : blockParts (validateListener form).body =
      [.var buttonName, .method setVar "is_valid" [], setVar, .method targetVar form.onSuccess [], targetVar] ++
        blockParts (errorReaction form) := by
    simp [validateListener, blockParts, blockExprs, stmtExprs, Expr.parts, Expr.partsAll, setVar, targetVar]
  intro e he
  rw [hparts] at he
  rcases List.mem_append.1 he with h | h
  · simp only [List.mem_cons, List.not_mem_nil, or_false] at h
    -- the host's callback may have any name, but it is not the set that it is called on
    rcases h with rfl | rfl | rfl | rfl | rfl <;>
      simp [Sound, Expr.IsLoose, Expr.IsAddition, setVar, targetVar, setName, targetName]
  · exact sound_errorReaction unit form e h

theorem blockScoped_clearListener : BlockScoped [setName, buttonName] clearListener.body := by
  simp [clearListener, BlockScoped, StmtScoped, handlerNames, Expr.uses, Expr.parts, Expr.partsAll,
    List.filterMap_cons, Expr.usedName?, setVar]

theorem sound_clearListener (unit : WiringUnit) :
    ∀ e ∈ blockParts clearListener.body, unit.Sound e ∧ ¬ e.IsAddition := by
  simp [clearListener, blockParts, blockExprs, stmtExprs, Expr.parts, Expr.partsAll, setVar, Sound, Expr.IsLoose,
    Expr.IsAddition]

theorem blockScoped_entryPoint (withBinding : Bool) :
    BlockScoped ((entryPoint withBinding).params.map TypedName.name) (entryPoint withBinding).body := by
  cases withBinding <;>
    simp [entryPoint, BlockScoped, StmtScoped, Expr.uses, Expr.parts, Expr.partsAll, List.filterMap_cons,
      Expr.usedName?, targetVar, bindingVar]

/-- An entry point calls the constructor with what it is given. -/
theorem sound_entryPoint (withBinding : Bool)
    (hnew : unit.Declares "new" (entryPoint withBinding).params.length) :
    ∀ e ∈ blockParts (entryPoint withBinding).body, unit.Sound e ∧ ¬ e.IsAddition := by
  cases withBinding <;>
    simpa [entryPoint, blockParts, blockExprs, stmtExprs, Expr.parts, Expr.partsAll, targetVar, bindingVar, Sound,
      Expr.IsAddition] using hnew

/-! ## The units -/

/-- **Method that fits its unit**: its names are bound, its parts are sound, and it adds nothing unless it is the
constructor. -/
structure Fits (unit : WiringUnit) (m : Method) : Prop where
  inScope : BlockScoped (m.params.map TypedName.name) m.body
  sound : ∀ e ∈ blockParts m.body, unit.Sound e
  addsNothing : m.name ≠ "new" → AddsNothing m.body

theorem fits_validateListener (unit : WiringUnit) (form : Form) : unit.Fits (validateListener form) where
  inScope := blockScoped_validateListener form
  sound := fun e he => (sound_validateListener unit form e he).1
  addsNothing := fun _ e he => (sound_validateListener unit form e he).2

theorem fits_clearListener (unit : WiringUnit) : unit.Fits clearListener where
  inScope := blockScoped_clearListener
  sound := fun e he => (sound_clearListener unit e he).1
  addsNothing := fun _ e he => (sound_clearListener unit e he).2

theorem fits_entryPoint {withBinding : Bool} (hnew : unit.Declares "new" (entryPoint withBinding).params.length) :
    unit.Fits (entryPoint withBinding) where
  inScope := blockScoped_entryPoint withBinding
  sound := fun e he => (sound_entryPoint withBinding hnew e he).1
  addsNothing := fun _ e he => (sound_entryPoint withBinding hnew e he).2

theorem mem_directMethods {ds : List Descriptor} {m : Method} :
    m ∈ directMethods form ds ↔ m = directConstructor form ds ∨
      (form.validateAction.isSome = true ∧ m = validateListener form) ∨
        (form.clearAction.isSome = true ∧ m = clearListener) ∨ m = entryPoint false := by
  unfold directMethods
  cases form.validateAction <;> cases form.clearAction <;> simp

/-- A direct unit declares exactly the listeners that its constructor calls, so every method fits. -/
theorem fits_of_direct {ds : List Descriptor} (hmethods : unit.methods = directMethods form ds) :
    ∀ m ∈ unit.methods, unit.Fits m := by
  have hdeclares : ∀ m ∈ directMethods form ds, unit.Declares m.name m.params.length := by
    intro m hm
    rw [← hmethods] at hm
    exact ⟨m, hm, rfl, rfl⟩
  have hvalidate : form.validateAction.isSome = true → unit.Declares validateListenerName 3 := by
    intro h
    exact hdeclares (validateListener form) (mem_directMethods.2 (.inr (.inl ⟨h, rfl⟩)))
  have hclear : form.clearAction.isSome = true → unit.Declares clearListenerName 2 := by
    intro h
    exact hdeclares clearListener (mem_directMethods.2 (.inr (.inr (.inl ⟨h, rfl⟩))))
  have hnew : unit.Declares "new" 1 := hdeclares (directConstructor form ds) (mem_directMethods.2 (.inl rfl))
  intro m hm
  rw [hmethods] at hm
  rcases mem_directMethods.1 hm with rfl | ⟨-, rfl⟩ | ⟨-, rfl⟩ | rfl
  · exact ⟨blockScoped_directConstructor form ds, sound_directConstructor ds hvalidate hclear,
      fun h => absurd rfl h⟩
  · exact fits_validateListener unit form
  · exact fits_clearListener unit
  · exact fits_entryPoint hnew

theorem fits_of_reflective (hmethods : unit.methods = reflectiveMethods form) : ∀ m ∈ unit.methods, unit.Fits m := by
  have hdeclares : ∀ m ∈ reflectiveMethods form, unit.Declares m.name m.params.length := by
    intro m hm
    rw [← hmethods] at hm
    exact ⟨m, hm, rfl, rfl⟩
  have hvalidate : unit.Declares validateListenerName 3 :=
    hdeclares (validateListener form) (by simp [reflectiveMethods])
  have hclear : unit.Declares clearListenerName 2 := hdeclares clearListener (by simp [reflectiveMethods])
  have hnew : unit.Declares "new" 2 := hdeclares reflectiveConstructor (by simp [reflectiveMethods])
  intro m hm
  rw [hmethods] at hm
  simp only [reflectiveMethods, List.mem_cons, List.not_mem_nil, or_false] at hm
  rcases hm with rfl | rfl | rfl | rfl
  · exact ⟨blockScoped_reflectiveConstructor, sound_reflectiveConstructor hvalidate hclear, fun h => absurd rfl h⟩
  · exact fits_validateListener unit form
  · exact fits_clearListener unit
  · exact fits_entryPoint hnew

/-- A unit is well formed when its methods fit, their names differ, one is public and the constructor has its
phases. -/
theorem wellFormed_of_fits (hfits : ∀ m ∈ unit.methods, unit.Fits m) (hnodup : (unit.methods.map Method.name).Nodup)
    (hentry : unit.publicMethods.map Method.name = ["init"])
    (hphases : ∃ new ∈ unit.methods, new.name = "new" ∧
      ∃ before during after isMutable, Phases new.body before during after isMutable) : unit.WellFormed where
  inScope := fun m hm => (hfits m hm).inScope
  resolved := fun m hm e he => ((hfits m hm).sound e he).resolves
  nodup := hnodup
  entry := hentry
  phases := hphases
  addsNothing := fun m hm => (hfits m hm).addsNothing
  tight := fun m hm e he _ hr => ((hfits m hm).sound e he).tight hr

theorem wellFormed_of_direct {ds : List Descriptor} (hmethods : unit.methods = directMethods form ds) :
    unit.WellFormed := by
  refine wellFormed_of_fits (fits_of_direct hmethods) ?_ ?_ ?_
  · rw [hmethods]
    unfold directMethods
    cases form.validateAction <;> cases form.clearAction <;>
      simp [directConstructor, validateListener, validateListenerName, clearListener, clearListenerName, entryPoint]
  · unfold publicMethods
    rw [hmethods]
    unfold directMethods
    cases form.validateAction <;> cases form.clearAction <;> rfl
  · refine ⟨directConstructor form ds, ?_, rfl, [], _, _, _, phases_directConstructor form ds⟩
    rw [hmethods]
    exact mem_directMethods.2 (.inl rfl)

theorem wellFormed_of_reflective (hmethods : unit.methods = reflectiveMethods form) : unit.WellFormed := by
  obtain ⟨before, during, after, hphases⟩ := phases_reflectiveConstructor
  refine wellFormed_of_fits (fits_of_reflective hmethods) ?_ ?_ ?_
  · rw [hmethods]
    exact (by decide : ["new", validateListenerName, clearListenerName, "init"].Nodup)
  · unfold publicMethods
    rw [hmethods]
    rfl
  · refine ⟨reflectiveConstructor, ?_, rfl, before, during, after, true, hphases⟩
    rw [hmethods]
    exact List.mem_cons_self

end WiringUnit

/-- **Compiled units are well formed**, whatever the form and the options: a form that passes its check compiles, and
the names, calls, additions and accesses of its unit all fit. -/
theorem Form.compile_wellFormed {form : Form} (hcheck : form.check = .ok ()) (options : Options) :
    ∃ unit, form.compile options = .ok unit ∧ unit.WellFormed := by
  refine ⟨_, Form.compile_eq_ok_iff.2 ⟨hcheck, rfl⟩, ?_⟩
  cases hvariant : form.variant options with
  | direct => exact wellFormed_of_direct (Execution.methods_ofForm hvariant)
  | reflective =>
    have hmethods : (ofForm form form.descriptors options).methods = reflectiveMethods form := by
      unfold ofForm
      rw [hvariant]
    exact wellFormed_of_reflective hmethods

/-- A form whose error callback is called like the method that adds validators. -/
def namesake : Form where
  host := "Namesake"
  fields := [{ name := "nick", rule := .length 2 9 true, messageResource := 7 }]
  validateAction := some "send"
  clearAction := some "reset"
  onSuccess := "on_valid"
  onError := some ⟨"add_validator", .withErrors⟩

/-- The form above compiles to a well-formed unit: what is called on the host is no addition. -/
theorem wellFormed_namesake :
    namesake.check = .ok () ∧ ∃ unit, namesake.compile {} = .ok unit ∧ unit.WellFormed := by
  have hcheck : namesake.check = .ok () := rfl
  exact ⟨hcheck, Form.compile_wellFormed hcheck {}⟩

end FormWiring
