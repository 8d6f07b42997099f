import FormWiring.Derive.Form
import FormWiring.Host.Declaration
import FormWiring.Proofs.WrittenFields
import Mathlib.Data.List.Permutation

/-!
# Two ways to write a form

A form can be written as data or as a host type with attributes. A host type that writes a model has the model's name
and visibility, its callbacks in one attribute, its fields in order, each with the attribute of its rule, and its
actions anywhere between them; other fields and other attributes may stand in all places. Deriving from the host type
is then expanding the model.

What a source text says is what the reader of declarations makes of it.

Main statement: `derive_eq_expand`.
-/

set_option autoImplicit false

namespace FormWiring

open Code

/-! ## Fields of a host -/

/-- **Attributes that play no part** on a field: they name neither a rule nor an action. -/
def Attribute.IsIdle (a : Attribute) : Prop :=
  ∀ label, a.name = some label → Action.ofAttributeName? label = none ∧ RuleKind.ofAttributeName? label = none

/-- **Host field that writes a field object**: of its name, with one attribute of its rule among idle ones. -/
structure WritesField (entries : List (String × Datum)) (field : Field) (f : HostField) : Prop where
  name : f.name = some field.name
  attributes : ∃ before after body options,
    f.attributes = before ++ ⟨some field.kind.attributeName, body⟩ :: after ∧ (∀ a ∈ before ++ after, a.IsIdle) ∧
      WritesEntries entries options ∧ WritesBody options body

/-- **Host field that writes an action**: of the member's name, with the bare attribute of the action among idle
ones. -/
structure WritesAction (action : Action) (member : String) (f : HostField) : Prop where
  name : f.name = some member
  attributes : ∃ before after, f.attributes = before ++ ⟨some action.attributeName, .bare⟩ :: after ∧
    ∀ a ∈ before ++ after, a.IsIdle

/-- **Host fields that write** the field objects of a model in order and its two actions where they like. Between them
stand fields that play no part. -/
inductive WritesFields : List Datum → Option String → Option String → List HostField → Prop where
  | nil : WritesFields [] none none []
  | field {entries : List (String × Datum)} {field : Field} {f : HostField} {ds : List Datum}
      {validate clear : Option String} {fs : List HostField}
      (hfield : Field.ofDatum? .json (.record entries) = some field) (hwrites : WritesField entries field f)
      (hrest : WritesFields ds validate clear fs) : WritesFields (.record entries :: ds) validate clear (f :: fs)
  | validate {member : String} {f : HostField} {ds : List Datum} {clear : Option String} {fs : List HostField}
      (hwrites : WritesAction .validate member f) (hrest : WritesFields ds none clear fs) :
      WritesFields ds (some member) clear (f :: fs)
  | clear {member : String} {f : HostField} {ds : List Datum} {validate : Option String} {fs : List HostField}
      (hwrites : WritesAction .clear member f) (hrest : WritesFields ds validate none fs) :
      WritesFields ds validate (some member) (f :: fs)
  | plain {name : String} {f : HostField} {ds : List Datum} {validate clear : Option String} {fs : List HostField}
      (hname : f.name = some name) (hidle : ∀ a ∈ f.attributes, a.IsIdle)
      (hrest : WritesFields ds validate clear fs) : WritesFields ds validate clear (f :: fs)

/-! ## Roles -/

namespace FieldRole

theorem step_of_isIdle (name : String) (r : DeclaredRole) {a : Attribute} (h : a.IsIdle) : step name r a = .ok r := by
  unfold step
  cases hname : a.name with
  | none => rfl
  | some label =>
    obtain ⟨haction, hkind⟩ := h label hname
    dsimp only
    rw [haction]
    dsimp only
    rw [hkind]

theorem foldlM_of_isIdle (name : String) (r : DeclaredRole) {attributes : List Attribute}
    (h : ∀ a ∈ attributes, a.IsIdle) : attributes.foldlM (step name) r = .ok r := by
  induction attributes with
  | nil => rfl
  | cons a attributes ih =>
    rw [List.foldlM_cons, step_of_isIdle name r (h a List.mem_cons_self)]
    exact ih fun b hb => h b (List.mem_cons_of_mem a hb)

/-- Idle attributes around one that counts do not matter. -/
theorem foldlM_of_one (name : String) (r : DeclaredRole) {before after : List Attribute} {a : Attribute}
    (h : ∀ b ∈ before ++ after, b.IsIdle) :
    (before ++ a :: after).foldlM (step name) r = step name r a := by
  rw [List.foldlM_append, foldlM_of_isIdle name r fun b hb => h b (List.mem_append_left after hb)]
  change List.foldlM (step name) r (a :: after) = _
  rw [List.foldlM_cons]
  cases step name r a with
  | error e => rfl
  | ok r' => exact foldlM_of_isIdle name r' fun b hb => h b (List.mem_append_right before hb)

/-- No rule is declared by the attribute of an action. -/
theorem ofAttributeName?_attributeName (kind : RuleKind) : Action.ofAttributeName? kind.attributeName = none := by
  cases kind <;> rfl

/-- **Role of a written field**: it is validated as its object says. -/
theorem ofHostField_of_writesField {entries : List (String × Datum)} {field : Field} {f : HostField}
    (hfield : Field.ofDatum? .json (.record entries) = some field)
    (hown : field.OwnsEntries entries) (htrim : field.HasTrimmedBounds)
    (h : WritesField entries field f) : ofHostField f = .ok (.validated field) := by
  obtain ⟨before, after, body, options, hattributes, hidle, hentries, hbody⟩ := h.attributes
  have hread := Field.ofAttribute_eq_ofDatum? hfield hown htrim hentries hbody
  have hkind : RuleKind.ofAttributeName? field.kind.attributeName = some field.kind :=
    RuleKind.ofAttributeName?_eq_some_iff.2 rfl
  have hstep : step field.name {} ⟨some field.kind.attributeName, body⟩ = .ok { rule := some field } := by
    unfold step
    dsimp only
    rw [ofAttributeName?_attributeName]
    dsimp only
    rw [hkind]
    dsimp only
    rw [hread]
    rfl
  unfold ofHostField
  rw [h.name]
  dsimp only
  rw [hattributes, foldlM_of_one field.name {} hidle, hstep]
  rfl

/-- **Role of a written action.** -/
theorem ofHostField_of_writesAction {action : Action} {member : String} {f : HostField}
    (h : WritesAction action member f) : ofHostField f = .ok (.action action) := by
  obtain ⟨before, after, hattributes, hidle⟩ := h.attributes
  have hstep : step member {} ⟨some action.attributeName, .bare⟩ = .ok { action := some action } := by
    cases action <;> rfl
  unfold ofHostField
  rw [h.name]
  dsimp only
  rw [hattributes, foldlM_of_one member {} hidle, hstep]
  rfl

/-- Role of a field without attributes that count. -/
theorem ofHostField_of_isIdle {name : String} {f : HostField} (hname : f.name = some name)
    (hidle : ∀ a ∈ f.attributes, a.IsIdle) : ofHostField f = .ok .plain := by
  unfold ofHostField
  rw [hname]
  dsimp only
  rw [foldlM_of_isIdle name {} hidle]
  rfl

end FieldRole

/-! ## Callbacks -/

/-- **Option of an error callback.** -/
def ErrorCallback.option (c : ErrorCallback) : String × WrittenValue :=
  match c.arity with
  | .bare => ("on_error", .text c.method)
  | .withErrors => ("on_error_with_errors", .text c.method)

/-- **Options of the callbacks** of a form. -/
def Form.callbackOptions (form : Form) : List (String × WrittenValue) :=
  ("on_success", .text form.onSuccess) :: form.onError.toList.map ErrorCallback.option

namespace Callbacks

/-- **Callbacks with one more option**, if it is one and does not contradict another. -/
def put? (c : Callbacks) (o : String × WrittenValue) : Option Callbacks :=
  match o with
  | ("on_success", .text method) => some { c with onSuccess := some method }
  | ("on_error", .text method) => (c.addError method .bare).toOption
  | ("on_error_with_errors", .text method) => (c.addError method .withErrors).toOption
  | _ => none

/-- Reading an option of a callback puts it. -/
theorem step_of_put? {c c' : Callbacks} {o : String × WrittenValue} (h : c.put? o = some c')
    {spelling : List Token} (hspells : o.2.Spells spelling) (joined : Bool) (rest : List Token) :
    step c (some o.1) (.mark '=' joined :: (spelling ++ rest)) = .ok (c', rest) := by
  have hadd : ∀ method arity, (c.addError method arity).toOption = some c' → c.addError method arity = .ok c' := by
    intro method arity hsome
    cases hadd : c.addError method arity with
    | error e =>
      rw [hadd] at hsome
      cases hsome
    | ok _ =>
      rw [hadd] at hsome
      cases hsome
      rfl
  unfold put? at h
  split at h
  · cases h
    exact OptionReader.bind_apply (OptionReader.textValue_apply hspells rfl joined rest)
  · refine (OptionReader.bind_apply (OptionReader.textValue_apply hspells rfl joined rest)).trans ?_
    rw [hadd _ _ h]
    rfl
  · refine (OptionReader.bind_apply (OptionReader.textValue_apply hspells rfl joined rest)).trans ?_
    rw [hadd _ _ h]
    rfl
  · cases h

/-- The options of a form's callbacks give them back, in any order. -/
theorem foldlM_put? {form : Form} {options : List (String × WrittenValue)} (h : options.Perm form.callbackOptions) :
    options.foldlM put? {} = some ⟨some form.onSuccess, form.onError⟩ := by
  unfold Form.callbackOptions at h
  -- one option or two, and two can only be swapped
  cases herror : form.onError with
  | none =>
    rw [herror] at h
    rw [List.perm_singleton.1 h]
    rfl
  | some callback =>
    rw [herror] at h
    obtain ⟨method, arity⟩ := callback
    cases arity with
    | bare =>
      rcases List.perm_pair.1 h with rfl | rfl
      · rfl
      · rfl
    | withErrors =>
      rcases List.perm_pair.1 h with rfl | rfl
      · rfl
      · rfl

theorem foldlM_of_other (c : Callbacks) {attributes : List Attribute}
    (h : ∀ a ∈ attributes, a.name ≠ some "validation") : attributes.foldlM ofAttribute c = .ok c := by
  induction attributes with
  | nil => rfl
  | cons a attributes ih =>
    have ha : ofAttribute c a = .ok c := by
      unfold ofAttribute
      exact if_neg (h a List.mem_cons_self)
    rw [List.foldlM_cons, ha]
    exact ih fun b hb => h b (List.mem_cons_of_mem a hb)

/-- **Callbacks of a host** that writes them in one attribute among others. -/
theorem ofAttributes_of_writes {form : Form} {options : List (String × WrittenValue)} {tokens : List Token}
    (hoptions : options.Perm form.callbackOptions) (hwrites : WritesOptions options tokens)
    {before after : List Attribute} (hother : ∀ a ∈ before ++ after, a.name ≠ some "validation") :
    ofAttributes (before ++ ⟨some "validation", .list tokens⟩ :: after) =
      .ok ⟨some form.onSuccess, form.onError⟩ := by
  have hread : OptionReader.foldOptions step {} tokens = .ok ⟨some form.onSuccess, form.onError⟩ := by
    refine OptionReader.foldOptions_of_writes ?_ hwrites (foldlM_put? hoptions)
    intro c c' o _ hput spelling hspells joined rest
    exact step_of_put? hput hspells joined rest
  unfold ofAttributes
  rw [List.foldlM_append, foldlM_of_other {} fun a ha => hother a (List.mem_append_left after ha)]
  change List.foldlM ofAttribute {} (⟨some "validation", .list tokens⟩ :: after) = _
  rw [List.foldlM_cons, show ofAttribute {} ⟨some "validation", .list tokens⟩ =
    .ok ⟨some form.onSuccess, form.onError⟩ from hread]
  exact foldlM_of_other _ fun a ha => hother a (List.mem_append_right before ha)

end Callbacks

/-! ## Forms -/

namespace Form

/-- **Field objects** of a written model. -/
def fieldObjects (d : Datum) : List Datum :=
  (((d.toParts? .json
    ["name", "visibility", "fields", "validate_action", "clear_action", "on_success", "on_error"]).bind
      fun get => get "fields").bind Datum.toItems?).getD []

/-- The field objects of a model decode to its fields, in order. -/
theorem mapM_fieldObjects {d : Datum} {form : Form} (h : Form.ofDatum? .json d = some form) :
    (fieldObjects d).mapM (Field.ofDatum? .json) = some form.fields := by
  obtain ⟨get, hget, h⟩ := Option.bind_eq_some_iff.1 h
  obtain ⟨_, -, h⟩ := Option.bind_eq_some_iff.1 h
  obtain ⟨_, -, h⟩ := Option.bind_eq_some_iff.1 h
  obtain ⟨fields, hfields, h⟩ := Option.bind_eq_some_iff.1 h
  obtain ⟨_, -, h⟩ := Option.bind_eq_some_iff.1 h
  obtain ⟨_, -, h⟩ := Option.bind_eq_some_iff.1 h
  obtain ⟨_, -, h⟩ := Option.bind_eq_some_iff.1 h
  obtain ⟨_, -, h⟩ := Option.bind_eq_some_iff.1 h
  cases h
  unfold fieldObjects
  rw [hget, Option.bind_some]
  cases hpart : get "fields" with
  | none =>
    rw [hpart] at hfields
    cases hfields
    rfl
  | some items =>
    rw [hpart] at hfields
    obtain ⟨items', hitems, hfields⟩ := Option.bind_eq_some_iff.1 hfields
    rw [Option.bind_some, hitems]
    exact hfields

/-- **Fields of a host that writes them**: the form gains the fields of the objects in order, and the actions. -/
theorem foldlM_addHostField {ds : List Datum} {validate clear : Option String} {fs : List HostField}
    (h : WritesFields ds validate clear fs) {fields : List Field}
    (hfields : ds.mapM (Field.ofDatum? .json) = some fields)
    (hown : ∀ entries field, .record entries ∈ ds → Field.ofDatum? .json (.record entries) = some field →
      field.OwnsEntries entries)
    (htrim : ∀ field ∈ fields, field.HasTrimmedBounds) (form : Form)
    (hvalidate : validate = none ∨ form.validateAction = none) (hclear : clear = none ∨ form.clearAction = none) :
    fs.foldlM addHostField form = .ok { form with
      fields := form.fields ++ fields
      validateAction := validate.or form.validateAction
      clearAction := clear.or form.clearAction } := by
  -- on how the fields were written; the form grows, and an action still to come is not set in it yet
  induction h generalizing fields form with
  | nil =>
    cases hfields
    simp
    rfl
  | @field entries field f ds validate clear fs hfield hwrites hrest ih =>
    rw [List.mapM_cons, hfield, Option.bind_eq_bind, Option.bind_some] at hfields
    obtain ⟨rest, hrest', hfields⟩ := Option.bind_eq_some_iff.1 hfields
    cases hfields
    have hrole := FieldRole.ofHostField_of_writesField hfield (hown entries field List.mem_cons_self hfield)
      (htrim field List.mem_cons_self) hwrites
    have hadd : addHostField form f = .ok { form with fields := form.fields ++ [field] } := by
      unfold addHostField
      rw [hrole]
      rfl
    rw [List.foldlM_cons, hadd]
    refine (ih hrest' (fun es g hes => hown es g (List.mem_cons_of_mem _ hes))
      (fun g hg => htrim g (List.mem_cons_of_mem field hg)) { form with fields := form.fields ++ [field] }
      hvalidate hclear).trans ?_
    simp
  | @validate member f ds clear fs hwrites hrest ih =>
    have hfree : form.validateAction = none := hvalidate.resolve_left (by simp)
    have hadd : addHostField form f = .ok { form with validateAction := some member } := by
      unfold addHostField
      rw [FieldRole.ofHostField_of_writesAction hwrites]
      change (if form.validateAction.isSome = true then _ else _) = _
      rw [hfree, hwrites.name]
      rfl
    rw [List.foldlM_cons, hadd]
    refine (ih hfields hown htrim { form with validateAction := some member } (.inl rfl) hclear).trans ?_
    simp
  | @clear member f ds validate fs hwrites hrest ih =>
    have hfree : form.clearAction = none := hclear.resolve_left (by simp)
    have hadd : addHostField form f = .ok { form with clearAction := some member } := by
      unfold addHostField
      rw [FieldRole.ofHostField_of_writesAction hwrites]
      change (if form.clearAction.isSome = true then _ else _) = _
      rw [hfree, hwrites.name]
      rfl
    rw [List.foldlM_cons, hadd]
    refine (ih hfields hown htrim { form with clearAction := some member } hvalidate (.inl rfl)).trans ?_
    simp
  | @plain name f ds validate clear fs hname hidle hrest ih =>
    have hadd : addHostField form f = .ok form := by
      unfold addHostField
      rw [FieldRole.ofHostField_of_isIdle hname hidle]
      rfl
    rw [List.foldlM_cons, hadd]
    exact ih hfields hown htrim form hvalidate hclear

end Form

/-! ## Hosts -/

/-- **Host type that writes a model**: of its name and visibility, with its callbacks in one attribute and its fields
and actions among its fields. -/
structure WritesHost (d : Datum) (form : Form) (host : HostType) : Prop where
  name : host.name = form.host
  visibility : host.visibility = form.visibility
  notGeneric : host.isGeneric = false
  callbacks : ∃ before after tokens options,
    host.attributes = before ++ ⟨some "validation", .list tokens⟩ :: after ∧
      (∀ a ∈ before ++ after, a.name ≠ some "validation") ∧ options.Perm form.callbackOptions ∧
        WritesOptions options tokens
  fields : ∃ fs, (host.shape = .named fs ∨ host.shape = .plain ∧ fs = []) ∧
    WritesFields (Form.fieldObjects d) form.validateAction form.clearAction fs

/-- **Form of a host that writes a model**: the form that the model decodes to. -/
theorem ofHostType_of_writesHost {d : Datum} {form : Form} {host : HostType}
    (hform : Form.ofDatum? .json d = some form)
    (hown : ∀ entries field, .record entries ∈ Form.fieldObjects d →
      Field.ofDatum? .json (.record entries) = some field → field.OwnsEntries entries)
    (htrim : ∀ field ∈ form.fields, field.HasTrimmedBounds) (h : WritesHost d form host) :
    Form.ofHostType host = .ok form := by
  obtain ⟨before, after, tokens, options, hattributes, hother, hoptions, hwrites⟩ := h.callbacks
  obtain ⟨fs, hshape, hfields⟩ := h.fields
  have hcallbacks := Callbacks.ofAttributes_of_writes hoptions hwrites hother
  rw [← hattributes] at hcallbacks
  -- the fold starts from a form without fields and actions
  have hfold := Form.foldlM_addHostField hfields (Form.mapM_fieldObjects hform) hown htrim
    { host := host.name, visibility := host.visibility, onSuccess := form.onSuccess, onError := form.onError }
    (.inr rfl) (.inr rfl)
  have hend : fs.foldlM Form.addHostField
      { host := host.name, visibility := host.visibility, onSuccess := form.onSuccess, onError := form.onError } =
        .ok form := by
    rw [hfold, h.name, h.visibility]
    simp
  unfold Form.ofHostType
  rw [h.notGeneric, hcallbacks]
  rcases hshape with hshape | ⟨hshape, rfl⟩
  · rw [hshape]
    exact hend
  · rw [hshape]
    exact hend

/-- **Deriving is expanding.** A model that decodes and a source text that declares a host type writing it give the
same: the code that expanding the model gives is the code derived, and when expanding fails deriving fails with the
same message. Field objects must hold entries of their own rule only, and bounds of a numeric limit no blanks at their
ends. -/
theorem derive_eq_expand {d : Datum} {form : Form} (hform : Form.ofDatum? .json d = some form)
    (hown : ∀ entries field, .record entries ∈ Form.fieldObjects d →
      Field.ofDatum? .json (.record entries) = some field → field.OwnsEntries entries)
    (htrim : ∀ field ∈ form.fields, field.HasTrimmedBounds) {source : String} {host : HostType}
    (hread : HostType.read? source = some host) (hwrites : WritesHost d form host) (dataBinding : Bool) :
    ∃ answer, (HostType.read? source).map (HostType.derive · dataBinding) = some answer ∧
      (∀ code, form.expand ⟨dataBinding, "formwire_core", "Validation"⟩ = .ok code → answer = .ok code) ∧
      (∀ e, form.expand ⟨dataBinding, "formwire_core", "Validation"⟩ = .error e →
        ∃ e', answer = .error e' ∧ e'.message = e.message) := by
  have hderive : host.derive dataBinding =
      (form.expand ⟨dataBinding, "formwire_core", "Validation"⟩).mapError .expansion := by
    unfold HostType.derive
    rw [ofHostType_of_writesHost hform hown htrim hwrites]
    rfl
  refine ⟨host.derive dataBinding, by rw [hread]; rfl, fun code hcode => ?_, fun e he => ?_⟩
  · rw [hderive, hcode]
    rfl
  · rw [hderive, he]
    exact ⟨.expansion e, rfl, rfl⟩

/-! ### A model written twice -/

/-- A field object for a length. -/
def nickEntries : List (String × Datum) :=
  [("name", .text "nick"), ("rule", .text "length"), ("min", .int 2), ("max", .int 9)]

/-- The field it decodes to. -/
def nickField : Field where
  name := "nick"
  rule := .length 2 9 true

/-- A model with this field and a validating action. -/
def signUpDatum : Datum :=
  .record
    [("name", .text "SignUp"), ("fields", .list [.record nickEntries]), ("validate_action", .text "send"),
      ("on_success", .text "ok")]

/-- The form it decodes to. -/
def signUp : Form where
  host := "SignUp"
  fields := [nickField]
  validateAction := some "send"
  onSuccess := "ok"

/-- The model as a host type: options in another order, the number in another base, a field that plays no part. -/
def signUpSource : String :=
  "#[validation(on_success = \"ok\")] struct SignUp \x7b #[length(max = 9, min = 0b10)] nick: A, hint: A, " ++
    "#[validate_on_click] send: B \x7d"

/-- Options as the source has them. -/
def nickOptions : List Token :=
  [.word "max", .mark '=' false, .literal "9", .mark ',' false, .word "min", .mark '=' false, .literal "0b10"]

/-- Callbacks as the source has them. -/
def signUpCallbacks : List Token :=
  [.word "on_success", .mark '=' false, .literal "\"ok\""]

/-- Token trees of the source. -/
def signUpTokens : List Token :=
  [.mark '#' false, .group .square [.word "validation", .group .round signUpCallbacks], .word "struct",
    .word "SignUp", .group .curly
      [.mark '#' false, .group .square [.word "length", .group .round nickOptions], .word "nick", .mark ':' false,
        .word "A", .mark ',' false, .word "hint", .mark ':' false, .word "A", .mark ',' false,
        .mark '#' false, .group .square [.word "validate_on_click"], .word "send", .mark ':' false, .word "B"]]

/-- The host type that the source declares. -/
def signUpHost : HostType where
  attributes := [⟨some "validation", .list signUpCallbacks⟩]
  visibility := .inherited
  name := "SignUp"
  isGeneric := false
  shape := .named
    [⟨[⟨some "length", .list nickOptions⟩], some "nick"⟩, ⟨[], some "hint"⟩,
      ⟨[⟨some "validate_on_click", .bare⟩], some "send"⟩]

set_option maxRecDepth 5000 in
theorem read?_signUpSource : HostType.read? signUpSource = some signUpHost := by
  have hscan : scan? signUpSource = some (Token.flattenAll signUpTokens) := by decide
  have hnest : (Token.nest ((Token.flattenAll signUpTokens).length + 1) (Token.flattenAll signUpTokens)).1 =
      signUpTokens := rfl
  unfold HostType.read? Token.read?
  rw [hscan, Option.map_some, hnest]
  rfl

theorem writesEntries_nick :
    WritesEntries nickEntries [("max", .number false 9), ("min", .number false 2)] where
  nodup := by decide
  same key := by
    by_cases hmax : key = "max"
    · subst hmax
      rfl
    · by_cases hmin : key = "min"
      · subst hmin
        rfl
      · by_cases hname : key = "name"
        · subst hname
          rfl
        · by_cases hrule : key = "rule"
          · subst hrule
            rfl
          · simp [nickEntries, Datum.entry?, List.lookup_cons, hmax, hmin, hname, hrule, beq_eq_false_iff_ne.2]

theorem writesOptions_nick :
    WritesOptions [("max", .number false 9), ("min", .number false 2)] nickOptions :=
  .comma false false (.number rfl) (.last false (.number rfl))

theorem writesHost_signUp : WritesHost signUpDatum signUp signUpHost where
  name := rfl
  visibility := rfl
  notGeneric := rfl
  callbacks := ⟨[], [], signUpCallbacks, [("on_success", .text "ok")], rfl, by simp, List.Perm.refl _,
    .last false (.text rfl)⟩
  fields := by
    have hnick : WritesField nickEntries nickField ⟨[⟨some "length", .list nickOptions⟩], some "nick"⟩ :=
      ⟨rfl, [], [], _, _, rfl, by simp, writesEntries_nick, .list writesOptions_nick⟩
    have hsend : WritesAction .validate "send" ⟨[⟨some "validate_on_click", .bare⟩], some "send"⟩ :=
      ⟨rfl, [], [], rfl, by simp⟩
    exact ⟨_, .inl rfl, .field rfl hnick (.plain rfl (by simp) (.validate hsend .nil))⟩

/-- The source above and its model give the same code. -/
theorem derive_signUp :
    Form.ofDatum? .json signUpDatum = some signUp ∧
      (∀ entries field, .record entries ∈ Form.fieldObjects signUpDatum →
        Field.ofDatum? .json (.record entries) = some field → field.OwnsEntries entries) ∧
      (∀ field ∈ signUp.fields, field.HasTrimmedBounds) ∧ HostType.read? signUpSource = some signUpHost ∧
      WritesHost signUpDatum signUp signUpHost ∧
      ∃ answer, (HostType.read? signUpSource).map (HostType.derive · true) = some answer ∧
        (∀ code, signUp.expand ⟨true, "formwire_core", "Validation"⟩ = .ok code → answer = .ok code) ∧
        (∀ e, signUp.expand ⟨true, "formwire_core", "Validation"⟩ = .error e →
          ∃ e', answer = .error e' ∧ e'.message = e.message) := by
  have hform : Form.ofDatum? .json signUpDatum = some signUp := rfl
  have hown : ∀ entries field, .record entries ∈ Form.fieldObjects signUpDatum →
      Field.ofDatum? .json (.record entries) = some field → field.OwnsEntries entries := by
    intro entries field hentries hfield
    obtain rfl : entries = nickEntries := by
      change .record entries ∈ [Datum.record nickEntries] at hentries
      simpa using hentries
    obtain rfl : nickField = field := Option.some.inj hfield
    unfold Field.OwnsEntries
    decide
  have htrim : ∀ field ∈ signUp.fields, field.HasTrimmedBounds := by
    intro field hfield min max required hrule
    obtain rfl : field = nickField := by simpa [signUp] using hfield
    cases hrule
  exact ⟨hform, hown, htrim, read?_signUpSource, writesHost_signUp,
    derive_eq_expand hform hown htrim read?_signUpSource writesHost_signUp true⟩

end FormWiring
