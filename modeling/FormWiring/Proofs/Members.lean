import FormWiring.Proofs.Contract
import FormWiring.Proofs.Identifiers
import FormWiring.Proofs.WrittenNames

/-!
# Members of the host in the code

A form names members of its host by texts, and its check compares them as texts: no two fields have one name, and no
action is a field. The code holds the identifiers that are read from the texts. A text may hold its identifier between
blanks and comments, so names that differ can be written alike, and then the check has granted nothing. What it grants
is kept exactly as far as the identifiers differ, and in particular where every name is its own identifier.

Main statement: `Form.keepsMembers_iff`.
-/

set_option autoImplicit false

namespace FormWiring

open Code

/-! ## Members as they are written -/

namespace WiringUnit

/-- **Member of the host** as the code has it. -/
def memberCode (name : String) : Except CodeError (List Lexeme) := do
  pure [.word targetName, dot, ← nameCode name]

/-- An action is accessed as a member. -/
theorem exprCode_field_targetVar (s : Surroundings) (name : String) :
    exprCode s (.field targetVar name) = memberCode name := by
  unfold memberCode
  rw [exprCode, targetVar, exprCode, nameCode_own (by decide)]
  rfl

theorem memberCode_of_identifier? {name w : String} (h : identifier? name = some w) :
    memberCode name = .ok [.word targetName, dot, .word w] := by
  unfold memberCode
  rw [nameCode_of_identifier? h]
  rfl

/-- **Members are told apart by their identifiers**, where they have one. -/
theorem memberCode_eq_iff {a b : String} (ha : (identifier? a).isSome = true) (hb : (identifier? b).isSome = true) :
    memberCode a = memberCode b ↔ identifier? a = identifier? b := by
  obtain ⟨v, hv⟩ := Option.isSome_iff_exists.1 ha
  obtain ⟨w, hw⟩ := Option.isSome_iff_exists.1 hb
  rw [memberCode_of_identifier? hv, memberCode_of_identifier? hw, hv, hw]
  simp

end WiringUnit

open WiringUnit

namespace Form

/-! ## Validated fields -/

/-- **Validated fields**: those that some descriptor is bound to. -/
def validated (form : Form) : List Field :=
  form.fields.filter fun f => form.descriptors.any fun d => d.targets.contains f.name

/-- **Identifiers** of the validated fields. -/
def validatedIdentifiers (form : Form) : List (Option String) :=
  form.validated.map fun f => identifier? f.name

/-- **Members are kept apart**: no two validated fields are written as one member, and no action as one of theirs. -/
structure KeepsMembers (form : Form) : Prop where
  fields : form.validated.Pairwise fun f g => memberCode f.name ≠ memberCode g.name
  actions : ∀ action ∈ form.actions, ∀ f ∈ form.validated, memberCode action ≠ memberCode f.name

variable {form : Form} {options : Options}

/-- A direct unit writes the members of validated fields. -/
theorem mem_memberNames_of_validated (hdirect : form.variant options = .direct) {f : Field} (hf : f ∈ form.validated) :
    f.name ∈ form.memberNames options := by
  have htargets := (List.mem_filter.1 hf).2
  obtain ⟨d, hd, hname⟩ := List.any_eq_true.1 htargets
  unfold memberNames
  rw [hdirect]
  apply List.mem_append_left
  exact List.mem_flatMap.2 ⟨d, hd, List.contains_iff_mem.1 hname⟩

/-- A reflective unit has no validated fields. -/
theorem validated_of_reflective (hreflective : form.variant options = .reflective) : form.validated = [] := by
  unfold validated
  rw [descriptors_of_reflective hreflective]
  simp

/-- **What expansion has read**: every member that it writes has an identifier. -/
theorem isSome_of_mem_memberNames (hexpand : ∃ text, form.expand options = .ok text) {name : String}
    (hname : name ∈ form.memberNames options) : (identifier? name).isSome = true := by
  have hnone := ((form.exists_expand_iff options).1 hexpand).2
  unfold firstUnreadable? at hnone
  rw [Option.map_eq_none_iff, List.find?_eq_none] at hnone
  have hwritten : WrittenText.identifier name ∈ form.writtenTexts options := by
    unfold writtenTexts
    simp [hname]
  have hread := hnone _ hwritten
  simpa [WrittenText.isReadable, Option.isSome_iff_ne_none] using hread

/-! ## When members are kept apart -/

/-- Members are kept apart exactly when the identifiers are, if all of them have one. -/
theorem keepsMembers_iff_of_isSome (hfields : ∀ f ∈ form.validated, (identifier? f.name).isSome = true)
    (hactions : ∀ action ∈ form.actions, (identifier? action).isSome = true) :
    form.KeepsMembers ↔ form.validatedIdentifiers.Nodup ∧
      ∀ action ∈ form.actions, identifier? action ∉ form.validatedIdentifiers := by
  have hpairs : (form.validated.Pairwise fun f g => memberCode f.name ≠ memberCode g.name) ↔
      form.validatedIdentifiers.Nodup := by
    unfold validatedIdentifiers List.Nodup
    rw [List.pairwise_map]
    refine List.Pairwise.iff_of_mem fun hf hg => not_congr ?_
    exact memberCode_eq_iff (hfields _ hf) (hfields _ hg)
  constructor
  · intro h
    refine ⟨hpairs.1 h.fields, fun action haction hmem => ?_⟩
    obtain ⟨f, hf, hsame⟩ := List.mem_map.1 hmem
    have hcode := (memberCode_eq_iff (hactions action haction) (hfields f hf)).2 hsame.symm
    exact h.actions action haction f hf hcode
  · rintro ⟨hnodup, hfree⟩
    refine ⟨hpairs.2 hnodup, fun action haction f hf hcode => ?_⟩
    have hsame := (memberCode_eq_iff (hactions action haction) (hfields f hf)).1 hcode
    exact hfree action haction (List.mem_map.2 ⟨f, hf, hsame.symm⟩)

/-- The check grants different identifiers where every name is its own. -/
theorem nodup_of_identifier? (hcheck : form.check = .ok ())
    (hfields : ∀ f ∈ form.validated, identifier? f.name = some f.name)
    (hactions : ∀ action ∈ form.actions, identifier? action = some action) :
    form.validatedIdentifiers.Nodup ∧ ∀ action ∈ form.actions, identifier? action ∉ form.validatedIdentifiers := by
  obtain ⟨-, hnodup, hfree⟩ := form.check_eq_ok_iff.1 hcheck
  have hnames : form.validatedIdentifiers = (form.validated.map Field.name).map some := by
    unfold validatedIdentifiers
    rw [List.map_map]
    exact List.map_congr_left hfields
  have hsublist : (form.validated.map Field.name).Sublist form.fieldNames := List.filter_sublist.map Field.name
  rw [hnames]
  constructor
  · exact (hnodup.sublist hsublist).map fun _ _ h => Option.some.inj h
  · intro action haction hmem
    rw [hactions action haction] at hmem
    obtain ⟨name, hname, hsame⟩ := List.mem_map.1 hmem
    cases hsame
    exact hfree action haction (hsublist.subset hname)

/-- **How far members are kept apart.** Each member that an expanded form writes, accessed by itself or as an input, is
a word that its name holds between gaps. So members are kept apart exactly when the identifiers of validated fields
differ and no action has one of them; and they are when every name is its own identifier. -/
theorem keepsMembers_iff (hexpand : ∃ text, form.expand options = .ok text) :
    (∀ name ∈ form.memberNames options, ∃ w, HoldsWord name w ∧
        memberCode name = .ok [.word targetName, dot, .word w] ∧
        ∀ s, exprCode s (.field targetVar name) = memberCode name ∧
          exprCode s (.input name) = .ok (callCode (s.item ["ui", "InputHandle", "input_handle"])
            [[ampersand, .word targetName, dot, .word w]])) ∧
      (form.KeepsMembers ↔ form.validatedIdentifiers.Nodup ∧
        ∀ action ∈ form.actions, identifier? action ∉ form.validatedIdentifiers) ∧
      ((∀ name ∈ form.memberNames options, identifier? name = some name) → form.KeepsMembers) := by
  have hcheck := ((form.exists_expand_iff options).1 hexpand).1
  refine ⟨fun name hname => ?_, ?_⟩
  · obtain ⟨w, hw⟩ := Option.isSome_iff_exists.1 (isSome_of_mem_memberNames hexpand hname)
    exact ⟨w, holdsWord_of_identifier? hw, memberCode_of_identifier? hw, fun s =>
      ⟨exprCode_field_targetVar s name, exprCode_input s hw⟩⟩
  · cases hvariant : form.variant options with
    | direct =>
      have hmem : ∀ f ∈ form.validated, f.name ∈ form.memberNames options := fun f hf =>
        mem_memberNames_of_validated hvariant hf
      have hactions : ∀ action ∈ form.actions, action ∈ form.memberNames options := by
        intro action haction
        unfold memberNames
        rw [hvariant]
        exact List.mem_append_right _ haction
      have hiff := keepsMembers_iff_of_isSome (fun f hf => isSome_of_mem_memberNames hexpand (hmem f hf))
        (fun action haction => isSome_of_mem_memberNames hexpand (hactions action haction))
      refine ⟨hiff, fun hown => hiff.2 ?_⟩
      exact nodup_of_identifier? hcheck (fun f hf => hown f.name (hmem f hf))
        (fun action haction => hown action (hactions action haction))
    | reflective =>
      -- without validated fields there is nothing to keep apart
      have hnone := validated_of_reflective hvariant
      have hkeeps : form.KeepsMembers := ⟨by simp [hnone], by simp [hnone]⟩
      refine ⟨⟨fun _ => ?_, fun _ => hkeeps⟩, fun _ => hkeeps⟩
      unfold validatedIdentifiers
      simp [hnone]

end Form

/-- A form with two fields whose names hold one identifier. -/
def twins : Form where
  host := "Twins"
  fields := [{ name := "a", rule := .required }, { name := " a", rule := .email true }]
  onSuccess := "on_valid"

/-- The form above expands, and both of its fields are written as one member. -/
theorem not_keepsMembers_twins : (∃ text, twins.expand {} = .ok text) ∧ ¬ twins.KeepsMembers := by
  have hcheck : twins.check = .ok () := rfl
  have hreadable : firstUnreadable? (twins.writtenTexts {}) = none := by decide +kernel
  have hexpand : ∃ text, twins.expand {} = .ok text := (twins.exists_expand_iff {}).2 ⟨hcheck, hreadable⟩
  have hrepeated : ¬ twins.validatedIdentifiers.Nodup := by decide
  exact ⟨hexpand, fun h => hrepeated ((Form.keepsMembers_iff hexpand).2.1.1 h).1⟩

end FormWiring
