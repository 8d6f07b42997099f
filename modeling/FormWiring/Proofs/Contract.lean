import FormWiring.Form
import Mathlib.Data.List.Nodup

/-!
# What the contract of a form grants

A form that passes its check has a success callback, fields of different names, and actions that are no fields; and
nothing more is asked of it.

Main statement: `Form.check_eq_ok_iff`.
-/

set_option autoImplicit false

namespace FormWiring

/-- There is no first repetition exactly when no name repeats another one or one seen before. -/
theorem firstRepeated?_eq_none_iff (seen names : List String) :
    firstRepeated? seen names = none ↔ names.Nodup ∧ ∀ name ∈ names, name ∉ seen := by
  induction names generalizing seen with
  | nil => simp [firstRepeated?]
  | cons name rest ih =>
    rw [firstRepeated?]
    by_cases hseen : name ∈ seen
    · rw [if_pos hseen]
      simp only [reduceCtorEq, false_iff, not_and]
      intro _ hfresh
      exact hfresh name List.mem_cons_self hseen
    · -- the name counts as seen from here on, which is what makes the rest differ from it
      rw [if_neg hseen, ih, List.nodup_cons]
      constructor
      · rintro ⟨hnodup, hfresh⟩
        refine ⟨⟨fun hrest => ?_, hnodup⟩, ?_⟩
        · exact hfresh name hrest (List.mem_append_right seen List.mem_cons_self)
        · intro other hother
          rcases List.mem_cons.1 hother with rfl | hrest
          · exact hseen
          · exact fun h => hfresh other hrest (List.mem_append_left [name] h)
      · rintro ⟨⟨hname, hnodup⟩, hfresh⟩
        refine ⟨hnodup, fun other hother hmem => ?_⟩
        rcases List.mem_append.1 hmem with h | h
        · exact hfresh other (List.mem_cons_of_mem name hother) h
        · rw [List.mem_singleton.1 h] at hother
          exact hname hother

/-- **A form passes its check** exactly when it keeps the three clauses of the contract. -/
theorem Form.check_eq_ok_iff (form : Form) :
    form.check = .ok () ↔
      Text.isBlankText form.onSuccess = false ∧ form.fieldNames.Nodup ∧
        ∀ action ∈ form.actions, action ∉ form.fieldNames := by
  have hnames := firstRepeated?_eq_none_iff [] form.fieldNames
  unfold Form.check
  cases hblank : Text.isBlankText form.onSuccess with
  | true => simp
  | false =>
    rw [if_neg Bool.false_ne_true]
    cases hrepeated : firstRepeated? [] form.fieldNames with
    | some name =>
      rw [hrepeated] at hnames
      simp only [reduceCtorEq, false_iff] at hnames ⊢
      rintro ⟨-, hnodup, -⟩
      exact hnames ⟨hnodup, fun _ _ => List.not_mem_nil⟩
    | none =>
      have hnodup : form.fieldNames.Nodup := (hnames.1 hrepeated).1
      cases hfound : form.actions.find? fun action => action ∈ form.fieldNames with
      | some action =>
        have hmem : action ∈ form.fieldNames := by simpa using List.find?_some hfound
        simp only [reduceCtorEq, false_iff]
        rintro ⟨-, -, hactions⟩
        exact hactions action (List.mem_of_find?_eq_some hfound) hmem
      | none =>
        have hactions := List.find?_eq_none.1 hfound
        simp only [true_and, hnodup, true_iff]
        intro action haction
        simpa using hactions action haction

/-- Fields of a form that passes its check are told apart by their names. -/
theorem Form.eq_of_name_eq {form : Form} (hcheck : form.check = .ok ()) {f g : Field} (hf : f ∈ form.fields)
    (hg : g ∈ form.fields) (hname : f.name = g.name) : f = g := by
  have hnodup : (form.fields.map Field.name).Nodup := (form.check_eq_ok_iff.1 hcheck).2.1
  exact List.inj_on_of_nodup_map hnodup hf hg hname

end FormWiring
