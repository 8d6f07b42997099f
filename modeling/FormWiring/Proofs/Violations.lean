import FormWiring.Log
import FormWiring.Proofs.Contract
import FormWiring.WiringUnit.Code

/-!
# Which violation is reported

The clauses of a form's contract are looked at in one order, so a form that breaks several of them has one first
violation. A check reports it, and so does everything that is made from a form, before it does anything of its own.

Main definition: `Form.FirstViolation`. Main statement: `Form.reports_firstViolation`.
-/

set_option autoImplicit false

namespace FormWiring

variable {form : Form} {e : FormError} {options : Options}

/-! ## The first violation -/

/-- **First violation** of the contract: a success callback of blanks; else the first field that has the name of an
earlier one; else the validating action, and else the clearing one, if it is a field. -/
inductive Form.FirstViolation (form : Form) : FormError → Prop where
  | missingSuccessCallback (blank : Text.isBlankText form.onSuccess = true) :
      FirstViolation form (.missingSuccessCallback form.host)
  | duplicateField {before after : List Field} {field : Field} (named : Text.isBlankText form.onSuccess = false)
      (split : form.fields = before ++ field :: after) (fresh : (before.map Field.name).Nodup)
      (repeated : field.name ∈ before.map Field.name) : FirstViolation form (.duplicateField form.host field.name)
  | validateAction {action : String} (named : Text.isBlankText form.onSuccess = false)
      (nodup : form.fieldNames.Nodup) (declared : form.validateAction = some action)
      (isField : action ∈ form.fieldNames) : FirstViolation form (.actionIsValidated action)
  | clearAction {action : String} (named : Text.isBlankText form.onSuccess = false) (nodup : form.fieldNames.Nodup)
      (validate : ∀ other ∈ form.validateAction, other ∉ form.fieldNames) (declared : form.clearAction = some action)
      (isField : action ∈ form.fieldNames) : FirstViolation form (.actionIsValidated action)

/-! ## Repetitions -/

/-- **First repetition**: all names before it are new, and it is not. -/
theorem firstRepeated?_eq_some_iff {seen names : List String} {name : String} :
    firstRepeated? seen names = some name ↔ ∃ before after, names = before ++ name :: after ∧
      (before.Nodup ∧ ∀ other ∈ before, other ∉ seen) ∧ (name ∈ seen ∨ name ∈ before) := by
  induction names generalizing seen with
  | nil => simp [firstRepeated?]
  | cons first rest ih =>
    rw [firstRepeated?]
    by_cases hseen : first ∈ seen
    · rw [if_pos hseen]
      constructor
      · rintro ⟨⟩
        exact ⟨[], rest, rfl, ⟨List.nodup_nil, List.forall_mem_nil _⟩, .inl hseen⟩
      · rintro ⟨_ | ⟨other, before⟩, after, hsplit, ⟨-, hfresh⟩, -⟩
        · rw [(List.cons.inj hsplit).1]
        · rw [(List.cons.inj hsplit).1] at hseen
          exact absurd hseen (hfresh other List.mem_cons_self)
    · rw [if_neg hseen, ih]
      constructor
      · -- the first name counts as seen from here on, so it is one of those before
        rintro ⟨before, after, rfl, ⟨hnodup, hfresh⟩, hrepeated⟩
        refine ⟨first :: before, after, rfl, ⟨List.nodup_cons.2 ⟨fun hmem => ?_, hnodup⟩, ?_⟩, ?_⟩
        · exact hfresh first hmem (List.mem_append_right seen List.mem_cons_self)
        · refine List.forall_mem_cons.2 ⟨hseen, fun other hother hmem => ?_⟩
          exact hfresh other hother (List.mem_append_left [first] hmem)
        · rw [List.mem_append, List.mem_singleton] at hrepeated
          rw [List.mem_cons]
          exact or_assoc.1 hrepeated
      · rintro ⟨_ | ⟨other, before⟩, after, hsplit, ⟨hnodup, hfresh⟩, hrepeated⟩
        · obtain ⟨rfl, -⟩ := List.cons.inj hsplit
          exact absurd (hrepeated.resolve_right List.not_mem_nil) hseen
        · obtain ⟨rfl, rfl⟩ := List.cons.inj hsplit
          obtain ⟨hother, hnodup⟩ := List.nodup_cons.1 hnodup
          refine ⟨before, after, rfl, ⟨hnodup, fun x hx hmem => ?_⟩, ?_⟩
          · rcases List.mem_append.1 hmem with hmem | hmem
            · exact hfresh x (List.mem_cons_of_mem first hx) hmem
            · rw [List.mem_singleton.1 hmem] at hx
              exact hother hx
          · rw [List.mem_cons] at hrepeated
            rw [List.mem_append, List.mem_singleton]
            exact or_assoc.2 hrepeated

theorem firstRepeated?_fieldNames_iff {name : String} :
    firstRepeated? [] form.fieldNames = some name ↔ ∃ before field after, form.fields = before ++ field :: after ∧
      (before.map Field.name).Nodup ∧ field.name ∈ before.map Field.name ∧ field.name = name := by
  rw [firstRepeated?_eq_some_iff]
  constructor
  · rintro ⟨before, after, hsplit, ⟨hnodup, -⟩, hrepeated⟩
    obtain ⟨front, back, hfields, rfl, hback⟩ := List.map_eq_append_iff.1 hsplit
    obtain ⟨field, rest, rfl, rfl, rfl⟩ := List.map_eq_cons_iff.1 hback
    exact ⟨front, field, rest, hfields, hnodup, hrepeated.resolve_left List.not_mem_nil, rfl⟩
  · rintro ⟨before, field, after, hfields, hnodup, hrepeated, rfl⟩
    refine ⟨before.map Field.name, after.map Field.name, ?_, ⟨hnodup, fun _ _ => List.not_mem_nil⟩, .inr hrepeated⟩
    rw [Form.fieldNames, hfields, List.map_append, List.map_cons]

/-- The first action that is a field is the validating one, or else the clearing one. -/
theorem find?_actions_eq_some_iff {names : List String} {action : String} :
    (form.actions.find? fun other => other ∈ names) = some action ↔
      (form.validateAction = some action ∧ action ∈ names) ∨
        ((∀ other ∈ form.validateAction, other ∉ names) ∧ form.clearAction = some action ∧ action ∈ names) := by
  have hone (declared : Option String) :
      (declared.toList.find? fun other => other ∈ names) = some action ↔ declared = some action ∧ action ∈ names := by
    cases declared with
    | none => simp
    | some other =>
      by_cases hother : other ∈ names
      · simp only [Option.toList_some, List.find?_cons, hother, decide_true, Option.some.injEq]
        exact ⟨fun h => ⟨h, h ▸ hother⟩, fun h => h.1⟩
      · simp only [Option.toList_some, List.find?_cons, hother, decide_false, List.find?_nil, Option.some.injEq]
        exact ⟨nofun, fun h => absurd (h.1 ▸ h.2) hother⟩
  unfold Form.actions
  rw [List.find?_append, Option.or_eq_some_iff, hone, hone]
  refine or_congr_right (and_congr_left fun _ => ?_)
  cases form.validateAction <;> simp

/-! ## The check -/

theorem Form.check_eq_error_iff : form.check = .error e ↔ form.FirstViolation e := by
  unfold Form.check
  constructor
  · intro h
    split at h
    · next hblank =>
      cases h
      exact .missingSuccessCallback hblank
    · next hnamed =>
      rw [Bool.not_eq_true] at hnamed
      split at h
      · next name hrepeated =>
        cases h
        obtain ⟨before, field, after, hsplit, hfresh, hmem, rfl⟩ := firstRepeated?_fieldNames_iff.1 hrepeated
        exact .duplicateField hnamed hsplit hfresh hmem
      · next hrepeated =>
        have hnodup := ((firstRepeated?_eq_none_iff [] form.fieldNames).1 hrepeated).1
        split at h
        · next action hfound =>
          cases h
          rcases find?_actions_eq_some_iff.1 hfound with ⟨hdeclared, hfield⟩ | ⟨hvalidate, hdeclared, hfield⟩
          · exact .validateAction hnamed hnodup hdeclared hfield
          · exact .clearAction hnamed hnodup hvalidate hdeclared hfield
        · cases h
  · intro h
    have hunrepeated (hnodup : form.fieldNames.Nodup) : firstRepeated? [] form.fieldNames = none :=
      (firstRepeated?_eq_none_iff [] form.fieldNames).2 ⟨hnodup, fun _ _ => List.not_mem_nil⟩
    cases h with
    | missingSuccessCallback hblank => rw [if_pos hblank]
    | duplicateField hnamed hsplit hfresh hmem =>
      have hrepeated := firstRepeated?_fieldNames_iff.2 ⟨_, _, _, hsplit, hfresh, hmem, rfl⟩
      rw [hnamed, if_neg Bool.false_ne_true, hrepeated]
    | validateAction hnamed hnodup hdeclared hfield =>
      have hfound := find?_actions_eq_some_iff.2 (.inl ⟨hdeclared, hfield⟩)
      rw [hnamed, if_neg Bool.false_ne_true, hunrepeated hnodup]
      dsimp only
      rw [hfound]
    | clearAction hnamed hnodup hvalidate hdeclared hfield =>
      have hfound := find?_actions_eq_some_iff.2 (.inr ⟨hvalidate, hdeclared, hfield⟩)
      rw [hnamed, if_neg Bool.false_ne_true, hunrepeated hnodup]
      dsimp only
      rw [hfound]

/-! ## What is made from a form -/

theorem bind_pure_eq_error_iff {ε α : Type} {x : Except ε Unit} {a : α} {e : ε} :
    (x >>= fun _ => pure a) = .error e ↔ x = .error e := by
  cases x with
  | error e' =>
    constructor
    · rintro ⟨⟩
      rfl
    · rintro ⟨⟩
      rfl
  | ok _ => exact ⟨nofun, nofun⟩

theorem Form.plan_eq_error_iff : form.plan options = .error e ↔ form.check = .error e :=
  bind_pure_eq_error_iff

theorem Form.compile_eq_error_iff : form.compile options = .error e ↔ form.check = .error e :=
  bind_pure_eq_error_iff

/-- Code that cannot be written is no violation of the contract. -/
theorem Form.expand_eq_formError_iff : form.expand options = .error (.form e) ↔ form.compile options = .error e := by
  unfold Form.expand
  cases form.compile options with
  | error e' =>
    constructor
    · rintro ⟨⟩
      rfl
    · rintro ⟨⟩
      rfl
  | ok unit =>
    refine ⟨fun h => ?_, nofun⟩
    simp only [Except.mapError, bind, Except.bind] at h
    cases hcode : unit.code options.runtimePath with
    | error e' =>
      rw [hcode] at h
      cases h
    | ok code =>
      rw [hcode] at h
      cases h

theorem Form.compileLog_of_error (h : form.check = .error e) : form.compileLog options = [] := by
  unfold Form.compileLog
  rw [h]

theorem Text.isBlankText_eq_false_iff {s : String} :
    Text.isBlankText s = false ↔ ∃ c ∈ s.toList, Text.isBlank c = false := by
  simp [Text.isBlankText]

/-- **The first violation is what is reported.** A form passes its check exactly when its success callback is more than
blanks, its fields have different names and its actions are no fields. If not, the check gives the first violation, and
planning, compiling and expanding give the same whatever the options, before anything is logged. -/
theorem Form.reports_firstViolation (form : Form) :
    (form.check = .ok () ↔
      (∃ c ∈ form.onSuccess.toList, Text.isBlank c = false) ∧ form.fieldNames.Nodup ∧
        (∀ action ∈ form.validateAction, action ∉ form.fieldNames) ∧
        ∀ action ∈ form.clearAction, action ∉ form.fieldNames) ∧
    ∀ e, (form.check = .error e ↔ form.FirstViolation e) ∧
      ∀ options,
        (form.plan options = .error e ↔ form.FirstViolation e) ∧
        (form.compile options = .error e ↔ form.FirstViolation e) ∧
        (form.expand options = .error (.form e) ↔ form.FirstViolation e) ∧
        (form.FirstViolation e → form.compileLog options = []) := by
  refine ⟨?_, fun e => ⟨form.check_eq_error_iff, fun options => ⟨?_, ?_, ?_, ?_⟩⟩⟩
  · rw [form.check_eq_ok_iff, Text.isBlankText_eq_false_iff]
    simp only [Form.actions, List.mem_append, Option.mem_toList, Option.mem_def, or_imp, forall_and]
  · rw [plan_eq_error_iff, check_eq_error_iff]
  · rw [compile_eq_error_iff, check_eq_error_iff]
  · rw [expand_eq_formError_iff, compile_eq_error_iff, check_eq_error_iff]
  · exact fun h => compileLog_of_error (check_eq_error_iff.2 h)

/-- **Form with two violations**: a repeated field, and an action that is a field. -/
def clash : Form where
  host := "Login"
  fields := [{ name := "name", rule := .required }, { name := "mail", rule := .required },
    { name := "mail", rule := .required }, { name := "name", rule := .required }]
  validateAction := some "name"
  onSuccess := "enter"

theorem reports_firstViolation_clash :
    clash.FirstViolation (.duplicateField "Login" "mail") ∧
      ∀ options, clash.expand options = .error (.form (.duplicateField "Login" "mail")) := by
  have hcheck : clash.check = .error (.duplicateField "Login" "mail") := rfl
  obtain ⟨hfirst, hmade⟩ := clash.reports_firstViolation.2 (.duplicateField "Login" "mail")
  exact ⟨hfirst.1 hcheck, fun options => (hmade options).2.2.1.2 (hfirst.1 hcheck)⟩

end FormWiring
