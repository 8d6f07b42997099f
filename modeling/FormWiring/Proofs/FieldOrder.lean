import FormWiring.Proofs.History
import FormWiring.Proofs.ResolvedFields

/-!
# Field lists that grow or change their order

A field looks at the rest of its list for one thing only, the first field of its partner kind. Lists with the same
first fields of the three partner kinds thus resolve every field alike. An insertion that leaves them in place adds the
new field's own descriptor and touches no other; a field at the end can only give a partner to those that had none;
and a permutation that keeps them permutes the descriptors, after which evaluation gives the same verdict and the same
messages in another order.

Main statements: `resolve_insert`, `Form.evaluate_perm_fields`.
-/

set_option autoImplicit false

namespace FormWiring

/-! ## Partners -/

/-- **Partner kinds**: those that fields of another kind are paired with. -/
def RuleKind.partners : List RuleKind :=
  [.email, .password, .betweenLimit]

/-- No kind depends on one that is not among them. -/
theorem RuleKind.mem_partners_of_pairing {kind partner : RuleKind} (h : kind.pairing = .dependent partner) :
    partner ∈ partners := by
  cases kind <;> cases h <;> decide

/-- **Same partners**: two field lists have the same first field of each partner kind, or both have none. -/
def SamePartners (fields fields' : List Field) : Prop :=
  ∀ kind ∈ RuleKind.partners, firstOfKind? fields kind = firstOfKind? fields' kind

namespace Field

theorem partner?_congr {fields fields' : List Field} (h : SamePartners fields fields') (f : Field) :
    f.partner? fields = f.partner? fields' := by
  unfold partner?
  cases hpairing : f.kind.pairing with
  | single => rfl
  | dependent kind => exact h kind (RuleKind.mem_partners_of_pairing hpairing)
  | partnerOnly => rfl

/-- A field is resolved by its partner, whatever else is declared. -/
theorem descriptor?_congr {fields fields' : List Field} {f : Field} (h : f.partner? fields = f.partner? fields') :
    f.descriptor? fields = f.descriptor? fields' := by
  unfold descriptor?
  rw [h]

/-- A partner that is found stays the partner when more fields follow. -/
theorem partner?_append {fields : List Field} {f g : Field} (h : f.partner? fields = some g) (more : List Field) :
    f.partner? (fields ++ more) = some g := by
  unfold partner? at h ⊢
  cases hpairing : f.kind.pairing with
  | single => rw [hpairing] at h; cases h
  | partnerOnly => rw [hpairing] at h; cases h
  | dependent kind =>
    rw [hpairing] at h
    dsimp only [firstOfKind?] at h ⊢
    rw [List.find?_append, h, Option.some_or]

/-- A dependent field without a partner resolves to nothing. -/
theorem descriptor?_of_partner?_eq_none {fields : List Field} {f : Field} {kind : RuleKind}
    (hpairing : f.kind.pairing = .dependent kind) (h : f.partner? fields = none) : f.descriptor? fields = none := by
  unfold descriptor?
  rw [h]
  cases hrule : f.rule with
  | confirmEmail | confirmPassword | betweenStart => rfl
  | _ => simp [Field.kind, hrule, Rule.kind, RuleKind.pairing] at hpairing

/-- A descriptor that a field resolves to is kept when more fields follow. -/
theorem descriptor?_append {fields : List Field} {f : Field} {d : Descriptor} (h : f.descriptor? fields = some d)
    (more : List Field) : f.descriptor? (fields ++ more) = some d := by
  cases hpairing : f.kind.pairing with
  | single | partnerOnly =>
    rw [← h]
    exact descriptor?_congr (by simp only [partner?, hpairing])
  | dependent kind =>
    cases hpartner : f.partner? fields with
    | none =>
      rw [descriptor?_of_partner?_eq_none hpairing hpartner] at h
      cases h
    | some g =>
      rw [← h]
      exact descriptor?_congr ((partner?_append hpartner more).trans hpartner.symm)

end Field

/-! ## Insertion -/

/-- The first fields of the partner kinds stay what they are when a field is inserted that is of another kind, or that
comes after one of its own kind. -/
theorem samePartners_insert {xs ys : List Field} {f : Field}
    (h : f.kind ∉ RuleKind.partners ∨ ∃ g ∈ xs, g.kind = f.kind) : SamePartners (xs ++ f :: ys) (xs ++ ys) := by
  intro kind hkind
  unfold firstOfKind?
  rw [List.find?_append, List.find?_append]
  by_cases hf : f.kind = kind
  · obtain ⟨g, hg, hgf⟩ := h.resolve_left fun hnot => hnot (hf ▸ hkind)
    have hfound : (xs.find? fun g => g.kind == kind).isSome = true :=
      List.find?_isSome.2 ⟨g, hg, by simp [hgf, hf]⟩
    rw [Option.or_of_isSome hfound, Option.or_of_isSome hfound]
  · rw [List.find?_cons_of_neg (by simpa using hf)]

/-- The triggering fields among some are as many as the descriptors they resolve to. -/
theorem length_filterMap_descriptor? (fields xs : List Field) :
    (xs.filterMap (Field.descriptor? fields)).length = xs.countP (Field.triggers fields) := by
  have hbeside := forall₂_filter_filterMap (l := xs) (r := Field.Describes fields)
    (fun f _ hf => Field.exists_descriptor?_of_triggers hf) (fun f _ hf => Field.descriptor?_of_not_triggers hf)
  rw [List.countP_eq_length_filter, hbeside.length_eq]

/-- What stays in place under `filterMap` while other entries may come in. -/
theorem sublist_filterMap {α β : Type} {p q : α → Option β} (l : List α)
    (h : ∀ a b, p a = some b → q a = some b) : (l.filterMap p).Sublist (l.filterMap q) := by
  induction l with
  | nil => exact List.Sublist.refl []
  | cons a l ih =>
    cases hp : p a with
    | some b =>
      rw [List.filterMap_cons_some hp, List.filterMap_cons_some (h a b hp)]
      exact ih.cons_cons b
    | none =>
      rw [List.filterMap_cons_none hp, List.filterMap_cons]
      split
      · exact ih
      · exact ih.cons _

/-- **Fields at the end** keep every descriptor, in order. -/
theorem sublist_resolve_append (xs ys : List Field) : (resolve xs).Sublist (resolve (xs ++ ys)) := by
  have hkept : (resolve xs).Sublist (xs.filterMap (Field.descriptor? (xs ++ ys))) :=
    sublist_filterMap xs fun f d hd => Field.descriptor?_append hd ys
  unfold resolve
  rw [List.filterMap_append]
  exact hkept.trans (List.sublist_append_left _ _)

/-- **Insertion of a field.** If the field is of no partner kind, or a field of its kind is declared before it, the
descriptors are the old ones with its own put in, if it has one, right after those that the fields before it trigger.
And whatever field comes last, the old descriptors are all there, in their order. -/
theorem resolve_insert (xs ys : List Field) (f : Field) :
    (f.kind ∉ RuleKind.partners ∨ (∃ g ∈ xs, g.kind = f.kind) →
        ∃ before after, resolve (xs ++ ys) = before ++ after ∧
          resolve (xs ++ f :: ys) = before ++ (f.descriptor? (xs ++ f :: ys)).toList ++ after ∧
            before.length = xs.countP (Field.triggers (xs ++ ys))) ∧
      (resolve xs).Sublist (resolve (xs ++ [f])) := by
  refine ⟨fun h => ?_, sublist_resolve_append xs [f]⟩
  have hsame : Field.descriptor? (xs ++ f :: ys) = Field.descriptor? (xs ++ ys) :=
    funext fun g => Field.descriptor?_congr (g.partner?_congr (samePartners_insert h))
  refine ⟨xs.filterMap (Field.descriptor? (xs ++ ys)), ys.filterMap (Field.descriptor? (xs ++ ys)), ?_, ?_, ?_⟩
  · unfold resolve
    rw [List.filterMap_append]
  · unfold resolve
    rw [hsame, List.filterMap_append, List.append_assoc, List.filterMap_cons]
    cases f.descriptor? (xs ++ ys) <;> rfl
  · exact length_filterMap_descriptor? (xs ++ ys) xs

/-- A second email between a confirmed email and another confirmation: both confirmations keep their partner. -/
theorem resolve_insert_secondEmail :
    ((Field.mk "second" (.email true) (-1) "" true).kind ∉ RuleKind.partners ∨
      ∃ g ∈ [Field.mk "first" (.email true) (-1) "" true, ⟨"again", .confirmEmail, -1, "", true⟩],
        g.kind = (Field.mk "second" (.email true) (-1) "" true).kind) ∧
      ∃ before after,
        resolve ([⟨"first", .email true, -1, "", true⟩, ⟨"again", .confirmEmail, -1, "", true⟩] ++
          [⟨"last", .confirmEmail, -1, "", true⟩]) = before ++ after ∧
        resolve ([⟨"first", .email true, -1, "", true⟩, ⟨"again", .confirmEmail, -1, "", true⟩] ++
            ⟨"second", .email true, -1, "", true⟩ :: [⟨"last", .confirmEmail, -1, "", true⟩]) =
          before ++ [⟨.email, ["second"], .literal "", [.bool true, .bool true]⟩] ++ after ∧
        before.length = 2 := by
  have h : (Field.mk "second" (.email true) (-1) "" true).kind ∉ RuleKind.partners ∨
      ∃ g ∈ [Field.mk "first" (.email true) (-1) "" true, ⟨"again", .confirmEmail, -1, "", true⟩],
        g.kind = (Field.mk "second" (.email true) (-1) "" true).kind :=
    .inr ⟨_, List.mem_cons_self, rfl⟩
  exact ⟨h, (resolve_insert _ [⟨"last", .confirmEmail, -1, "", true⟩] _).1 h⟩

/-! ## Permutation -/

/-- **Permuted fields** with the same partners resolve to permuted descriptors. -/
theorem resolve_perm {fields fields' : List Field} (hperm : fields.Perm fields')
    (hfirst : SamePartners fields fields') : (resolve fields).Perm (resolve fields') := by
  have hsame : Field.descriptor? fields = Field.descriptor? fields' :=
    funext fun f => Field.descriptor?_congr (f.partner?_congr hfirst)
  unfold resolve
  rw [hsame]
  exact hperm.filterMap _

/-- So do the validators they call for. -/
theorem filterMap_validator?_perm (lookup : Int32 → String) {fields fields' : List Field}
    (hperm : fields.Perm fields') (hfirst : SamePartners fields fields') :
    (fields.filterMap (Field.validator? lookup fields)).Perm
      (fields'.filterMap (Field.validator? lookup fields')) := by
  have hsame : Field.validator? lookup fields = Field.validator? lookup fields' := by
    funext f
    have hbuilt := f.map_ofDescriptor? lookup fields
    rw [Field.descriptor?_congr (f.partner?_congr hfirst), f.map_ofDescriptor? lookup fields'] at hbuilt
    exact Option.map_injective (fun _ _ heq => Option.some.inj heq) hbuilt.symm
  rw [hsame]
  exact hperm.filterMap _

/-- **Evaluation in another order**: sets of the same validators answer alike on the same texts, and their messages
differ in order only. No validator reads what another one writes. -/
theorem Session.evaluate_perm {x y : Session} (hperm : x.set.validators.Perm y.set.validators)
    (htexts : x.screen.SameTexts y.screen) :
    (x.step .evaluate).2 = (y.step .evaluate).2 ∧
      (x.step .evaluate).1.set.errors.Perm (y.step .evaluate).1.set.errors := by
  have haccepts : Validator.accepts x.screen = Validator.accepts y.screen :=
    funext fun v => Validator.accepts_congr htexts v
  have hfailure : Validator.failure? x.screen = Validator.failure? y.screen :=
    funext fun v => Validator.failure?_congr htexts v
  rw [Session.step_evaluate, Session.step_evaluate, haccepts, hfailure]
  exact ⟨congrArg StepAnswer.verdict hperm.all_eq, hperm.filterMap _⟩

/-- **Field order matters through first partners only.** Two forms whose fields are the same but for their order, and
whose first email, first password and first limit are the same, have the same descriptors but for their order. Both
build, and on screens with the same texts both sets give the same verdict, and the same messages but for their
order. -/
theorem Form.evaluate_perm_fields (form form' : Form) (hperm : form.fields.Perm form'.fields)
    (hfirst : SamePartners form.fields form'.fields) (lookup : Int32 → String) :
    form.descriptors.Perm form'.descriptors ∧
      ∃ vs vs', form.descriptors.mapM (Validator.ofDescriptor? lookup) = some vs ∧
        form'.descriptors.mapM (Validator.ofDescriptor? lookup) = some vs' ∧
          ∀ s s' : Screen, s.SameTexts s' →
            ((Session.start s vs).step .evaluate).2 = ((Session.start s' vs').step .evaluate).2 ∧
              ((Session.start s vs).step .evaluate).1.set.errors.Perm
                ((Session.start s' vs').step .evaluate).1.set.errors := by
  refine ⟨resolve_perm hperm hfirst, _, _, mapM_ofDescriptor?_resolve lookup form.fields,
    mapM_ofDescriptor?_resolve lookup form'.fields, fun s s' htexts => ?_⟩
  refine Session.evaluate_perm (filterMap_validator?_perm lookup hperm hfirst) fun name => ?_
  -- binding the validators watches inputs, and no text changes by it
  exact (Screen.text_attachAll _ s name).trans ((htexts name).trans (Screen.text_attachAll _ s' name).symm)

/-- **Form of three fields**, one of which confirms another. -/
def contact : Form where
  host := "Contact"
  onSuccess := "ok"
  fields := [⟨"mail", .email true, -1, "bad", true⟩, ⟨"again", .confirmEmail, -1, "differs", true⟩,
    ⟨"name", .required, 7, "", true⟩]

/-- **The same form** with its fields in another order. -/
def contactReversed : Form :=
  { contact with fields := contact.fields.reverse }

theorem evaluate_perm_fields_contact :
    contact.fields.Perm contactReversed.fields ∧ SamePartners contact.fields contactReversed.fields ∧
      contact.descriptors.Perm contactReversed.descriptors ∧
        ∃ vs vs', contact.descriptors.mapM (Validator.ofDescriptor? fun _ => "missing") = some vs ∧
          contactReversed.descriptors.mapM (Validator.ofDescriptor? fun _ => "missing") = some vs' ∧
            ∀ s s' : Screen, s.SameTexts s' →
              ((Session.start s vs).step .evaluate).2 = ((Session.start s' vs').step .evaluate).2 ∧
                ((Session.start s vs).step .evaluate).1.set.errors.Perm
                  ((Session.start s' vs').step .evaluate).1.set.errors := by
  have hperm : contact.fields.Perm contactReversed.fields := by decide
  have hfirst : SamePartners contact.fields contactReversed.fields := by
    unfold SamePartners
    decide
  exact ⟨hperm, hfirst, Form.evaluate_perm_fields contact contactReversed hperm hfirst fun _ => "missing"⟩

end FormWiring
