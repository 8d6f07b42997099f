import FormWiring.Resolution
import FormWiring.Proofs.Reporting

/-!
# What a form means

A form is resolved to descriptors, descriptors are built into validators, and the validators are evaluated. Here the
same answer is read off the fields alone: which of them are satisfied by the texts, and what each of the others says.
The two agree because every descriptor that resolution gives is one that a validator can be built from, and the
validator built is the one the field calls for.

Main statement: `Form.evaluate_eq_fields`.
-/

set_option autoImplicit false

namespace FormWiring

/-! ## Fields and texts -/

/-- **Number entered** as a text, blanks around it apart. -/
def enteredNumber? (text : String) : Option Int :=
  Check.finiteOfText? (Text.trimChars text.toList)

/-- **Range**: two finite numbers in order. -/
def isRange (start limit : String) : Bool :=
  match enteredNumber? start, enteredNumber? limit with
  | some a, some b => a ≤ b
  | _, _ => false

namespace Field

/-- **Satisfied field** of a form, given the texts of all inputs. A confirmation repeats the text of the first field
of its partner kind, a start is in range with the first limit, and without a partner both are content. A limit asks
for nothing. Every other field is checked by its own rule. -/
def isSatisfied (fields : List Field) (text : String → String) (f : Field) : Bool :=
  match f.rule with
  | .confirmEmail => (firstOfKind? fields .email).all fun g => text f.name == text g.name
  | .confirmPassword => (firstOfKind? fields .password).all fun g => text f.name == text g.name
  | .betweenStart => (firstOfKind? fields .betweenLimit).all fun g => isRange (text f.name) (text g.name)
  | .betweenLimit => true
  | rule => rule.check?.any fun check => check.accepts (text f.name)

/-- **Own message** of a field: the text of its resource if the number is set, else the quoted text. -/
def ownMessage (lookup : Int32 → String) (f : Field) : String :=
  if f.messageResource = unsetResource then f.messageText else lookup f.messageResource

/-- **Complaint** of a field that is not satisfied: its own message. Only a start that is itself a number lets the
limit speak when the limit is none. -/
def complaint (lookup : Int32 → String) (fields : List Field) (text : String → String) (f : Field) : String :=
  match f.rule, firstOfKind? fields .betweenLimit with
  | .betweenStart, some g =>
    if (enteredNumber? (text f.name)).isSome && (enteredNumber? (text g.name)).isNone then g.ownMessage lookup
    else f.ownMessage lookup
  | _, _ => f.ownMessage lookup

/-! ## Validators of fields -/

/-- **Binding** to a field's own input. -/
def binding (lookup : Int32 → String) (f : Field) : Binding :=
  ⟨f.name, f.message.text lookup, f.autoDismiss⟩

/-- **Validator of a field**, if it calls for one. -/
def validator? (lookup : Int32 → String) (fields : List Field) (f : Field) : Option Validator :=
  match f.rule with
  | .confirmEmail =>
    (firstOfKind? fields .email).map fun g => .confirmation g.name (f.binding lookup)
  | .confirmPassword =>
    (firstOfKind? fields .password).map fun g => .confirmation g.name (f.binding lookup)
  | .betweenStart =>
    (firstOfKind? fields .betweenLimit).map fun g => .between (f.binding lookup) (g.binding lookup)
  | rule => rule.check?.map fun check => .single (f.binding lookup) check

theorem text_message (lookup : Int32 → String) (f : Field) :
    f.message.text lookup = f.ownMessage lookup := by
  unfold message ownMessage MessageSource.choose
  split <;> rfl

/-- A descriptor that a field resolves to always builds, and builds the validator the field calls for. -/
theorem map_ofDescriptor? (lookup : Int32 → String) (fields : List Field) (f : Field) :
    (f.descriptor? fields).map (Validator.ofDescriptor? lookup) = (f.validator? lookup fields).map some := by
  obtain ⟨name, rule, resource, quoted, dismiss⟩ := f
  -- a paired kind may lack its partner, then both sides are empty
  cases rule with
  | confirmEmail =>
    simp only [descriptor?, validator?, partner?, kind, Rule.kind, RuleKind.pairing]
    cases firstOfKind? fields .email <;> rfl
  | confirmPassword =>
    simp only [descriptor?, validator?, partner?, kind, Rule.kind, RuleKind.pairing]
    cases firstOfKind? fields .password <;> rfl
  | betweenStart =>
    simp only [descriptor?, validator?, partner?, kind, Rule.kind, RuleKind.pairing]
    cases firstOfKind? fields .betweenLimit <;> rfl
  | _ => rfl

end Field

theorem mapM_filterMap {α β γ : Type} {p : α → Option β} {q : β → Option γ} {r : α → Option γ}
    (h : ∀ a, (p a).map q = (r a).map some) (l : List α) :
    (l.filterMap p).mapM q = some (l.filterMap r) := by
  induction l with
  | nil => rfl
  | cons a l ih =>
    have ha := h a
    rw [List.filterMap_cons, List.filterMap_cons]
    cases hp : p a with
    | none =>
      rw [hp, Option.map_none, eq_comm, Option.map_eq_none_iff] at ha
      rw [ha]
      exact ih
    | some b =>
      rw [hp, Option.map_some, eq_comm, Option.map_eq_some_iff] at ha
      obtain ⟨c, hr, hq⟩ := ha
      rw [hr]
      dsimp only
      rw [List.mapM_cons, ← hq, ih]
      rfl

/-- **Building never fails** on resolved descriptors, and gives the validators the fields call for. -/
theorem mapM_ofDescriptor?_resolve (lookup : Int32 → String) (fields : List Field) :
    (resolve fields).mapM (Validator.ofDescriptor? lookup) =
      some (fields.filterMap (Field.validator? lookup fields)) :=
  mapM_filterMap (Field.map_ofDescriptor? lookup fields) fields

/-! ## Failures -/

namespace Validator

variable (s : Screen)

theorem failure?_single (b : Binding) (check : FieldCheck) :
    (single b check).failure? s = if check.accepts (s.text b.input) then none else some b.message := by
  unfold failure?
  rw [reports, List.find?_singleton]
  cases check.accepts (s.text b.input) <;> rfl

theorem failure?_confirmation (confirmed : String) (b : Binding) :
    (confirmation confirmed b).failure? s =
      if s.text b.input == s.text confirmed then none else some b.message := by
  unfold failure?
  rw [reports, List.find?_singleton]
  cases s.text b.input == s.text confirmed <;> rfl

/-- The start speaks first: the limit's message is given only when the start is a number by itself. -/
theorem failure?_between (start limit : Binding) :
    (between start limit).failure? s =
      if isRange (s.text start.input) (s.text limit.input) then none
      else if (enteredNumber? (s.text start.input)).isSome && (enteredNumber? (s.text limit.input)).isNone
        then some limit.message
      else some start.message := by
  have hstart : numberIn? s start.input = enteredNumber? (s.text start.input) := rfl
  have hlimit : numberIn? s limit.input = enteredNumber? (s.text limit.input) := rfl
  unfold failure? isRange
  rw [reports, hstart, hlimit]
  cases enteredNumber? (s.text start.input) with
  | none => rfl
  | some a =>
    cases enteredNumber? (s.text limit.input) with
    | none => rfl
    | some b =>
      by_cases h : a ≤ b
      · simp [betweenVerdicts, h]
      · simp [betweenVerdicts, h]

end Validator

namespace Field

variable (lookup : Int32 → String) (fields : List Field) (text : String → String)

/-- Only the paired kinds have no check of their own. -/
theorem paired_of_check?_eq_none {rule : Rule} (h : rule.check? = none) :
    rule = .confirmEmail ∨ rule = .confirmPassword ∨ rule = .betweenStart ∨ rule = .betweenLimit := by
  cases rule <;> simp [Rule.check?] at h ⊢

theorem validator?_of_check? {f : Field} {check : FieldCheck} (h : f.rule.check? = some check) :
    f.validator? lookup fields = some (.single (f.binding lookup) check) := by
  obtain ⟨name, rule, resource, quoted, dismiss⟩ := f
  cases rule <;> cases h <;> rfl

theorem isSatisfied_of_check? {f : Field} {check : FieldCheck} (h : f.rule.check? = some check) :
    f.isSatisfied fields text = check.accepts (text f.name) := by
  obtain ⟨name, rule, resource, quoted, dismiss⟩ := f
  cases rule <;> cases h <;> rfl

theorem complaint_of_ne_betweenStart {f : Field} (h : f.rule ≠ .betweenStart) :
    f.complaint lookup fields text = f.ownMessage lookup := by
  unfold complaint
  split
  · next hrule _ => exact absurd hrule h
  · rfl

/-- A confirmation fails exactly when it repeats another text than that of its partner. Without one it is content. -/
theorem bind_failure?_confirmation (s : Screen) (f : Field) (partner : Option Field) :
    (partner.map fun g => Validator.confirmation g.name (f.binding lookup)).bind (Validator.failure? s) =
      if partner.all fun g => s.text f.name == s.text g.name then none else some (f.ownMessage lookup) := by
  cases partner with
  | none => rfl
  | some g =>
    rw [Option.map_some, Option.bind_some, Validator.failure?_confirmation, Option.all_some, binding, text_message]

/-- The validator of a field fails exactly when the field is not satisfied, and then gives its complaint. -/
theorem bind_failure? (s : Screen) (f : Field) :
    (f.validator? lookup fields).bind (Validator.failure? s) =
      if f.isSatisfied fields s.text then none else some (f.complaint lookup fields s.text) := by
  cases hcheck : f.rule.check? with
  | some check =>
    have hrule : f.rule ≠ .betweenStart := fun h => by simp [h, Rule.check?] at hcheck
    rw [validator?_of_check? lookup fields hcheck, isSatisfied_of_check? fields s.text hcheck,
      complaint_of_ne_betweenStart lookup fields s.text hrule, Option.bind_some,
      Validator.failure?_single, binding, text_message]
  | none =>
    rcases paired_of_check?_eq_none hcheck with hrule | hrule | hrule | hrule
    · rw [complaint_of_ne_betweenStart _ _ _ (by simp [hrule])]
      simp only [validator?, isSatisfied, hrule]
      exact bind_failure?_confirmation lookup s f _
    · rw [complaint_of_ne_betweenStart _ _ _ (by simp [hrule])]
      simp only [validator?, isSatisfied, hrule]
      exact bind_failure?_confirmation lookup s f _
    · cases hpartner : firstOfKind? fields .betweenLimit with
      | none => simp [validator?, isSatisfied, hrule, hpartner]
      | some g =>
        simp only [validator?, isSatisfied, complaint, hrule, hpartner, Option.map_some, Option.bind_some,
          Option.all_some, Validator.failure?_between, binding, text_message, apply_ite some]
    · simp [validator?, isSatisfied, hrule, Rule.check?]

end Field

theorem filterMap_ite {α β : Type} (p : α → Bool) (g : α → β) (l : List α) :
    (l.filterMap fun a => if p a then none else some (g a)) = (l.filter fun a => !p a).map g := by
  induction l with
  | nil => rfl
  | cons a l ih =>
    rw [List.filterMap_cons, List.filter_cons, ih]
    cases p a <;> rfl

/-- The validators of the fields give the complaints of those that are not satisfied, in declaration order. -/
theorem filterMap_failure?_validators (lookup : Int32 → String) (fields : List Field) (s : Screen) :
    (fields.filterMap (Field.validator? lookup fields)).filterMap (Validator.failure? s) =
      (fields.filter fun f => !f.isSatisfied fields s.text).map
        (Field.complaint lookup fields s.text) := by
  rw [List.filterMap_filterMap, ← filterMap_ite]
  exact congrArg (fun p => fields.filterMap p) (funext (Field.bind_failure? lookup fields s))

/-! ## The statement -/

/-- **A form means what its fields say.** The descriptors of a form always build, and evaluating the validators on
any screen accepts exactly when every field is satisfied by the texts; the messages are the complaints of the fields
that are not, in declaration order, one each. -/
theorem Form.evaluate_eq_fields (form : Form) (lookup : Int32 → String) :
    ∃ vs, form.descriptors.mapM (Validator.ofDescriptor? lookup) = some vs ∧ ∀ s : Screen,
      ((Session.start s vs).step .evaluate).2 =
          .verdict (form.fields.all (Field.isSatisfied form.fields s.text)) ∧
        ((Session.start s vs).step .evaluate).1.set.errors =
          (form.fields.filter fun f => !f.isSatisfied form.fields s.text).map
            (Field.complaint lookup form.fields s.text) := by
  refine ⟨_, mapM_ofDescriptor?_resolve lookup form.fields, fun s => ?_⟩
  set vs := form.fields.filterMap (Field.validator? lookup form.fields) with hvs
  have htext : (s.attachAll vs).text = s.text := funext fun name => Screen.text_attachAll vs s name
  have herrors : vs.filterMap (Validator.failure? (s.attachAll vs)) =
      (form.fields.filter fun f => !f.isSatisfied form.fields s.text).map
        (Field.complaint lookup form.fields s.text) := by
    rw [hvs, filterMap_failure?_validators, ← hvs, htext]
  have hstep : (Session.start s vs).set.evaluate (Session.start s vs).screen =
      (vs.all (Validator.accepts (s.attachAll vs)), _, _) := ValidatorSet.evaluate_eq _ _
  refine ⟨?_, ?_⟩
  · unfold Session.step
    rw [hstep]
    refine congrArg StepAnswer.verdict ?_
    rw [← isEmpty_filterMap_failure?, herrors, List.isEmpty_map, Bool.eq_iff_iff]
    simp [List.filter_eq_nil_iff]
  · unfold Session.step
    rw [hstep]
    exact herrors

/-- Not every field that is left unsatisfied speaks for itself: a start that is a number leaves the word to a limit
that is none. -/
theorem Form.errors_ne_ownMessages :
    ¬ ∀ (form : Form) (lookup : Int32 → String) (vs : List Validator) (s : Screen), form.check = .ok () →
      form.descriptors.mapM (Validator.ofDescriptor? lookup) = some vs →
        ((Session.start s vs).step .evaluate).1.set.errors =
          (form.fields.filter fun f => !f.isSatisfied form.fields s.text).map (Field.ownMessage lookup) := by
  intro h
  have hrange := h
    { host := "Range", onSuccess := "on_valid",
      fields := [{ name := "from", rule := .betweenStart, messageText := "bad start" },
        { name := "to", rule := .betweenLimit, messageText := "bad limit" }] }
    (fun _ => "") [.between ⟨"from", "bad start", true⟩ ⟨"to", "bad limit", true⟩]
    (.ofTexts [("from", "1"), ("to", "lots")]) rfl (by decide)
  exact absurd hrange (by decide +kernel)

end FormWiring
