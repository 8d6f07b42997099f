import FormWiring.Proofs.Meaning
import Mathlib.Data.List.Forall2

/-!
# What a field list resolves to

Which fields trigger a validator, who their partner is, and what stands at each place of the validator's constructor
is said here without walking the list. Resolution gives exactly that, one descriptor for each triggering field in
declaration order, and the constructor takes what it is given. Names play no part in it, so they may repeat.

Main statement: `forall₂_describes_resolve`.
-/

set_option autoImplicit false

namespace FormWiring

/-! ## Partners -/

/-- **First field of a kind**: no field declared before it is of that kind. -/
def IsFirst (fields : List Field) (kind : RuleKind) (g : Field) : Prop :=
  ∃ before after, fields = before ++ g :: after ∧ g.kind = kind ∧ ∀ f ∈ before, f.kind ≠ kind

theorem firstOfKind?_eq_some_iff {fields : List Field} {kind : RuleKind} {g : Field} :
    firstOfKind? fields kind = some g ↔ IsFirst fields kind g := by
  unfold firstOfKind? IsFirst
  rw [List.find?_eq_some_iff_append]
  constructor
  · rintro ⟨hkind, before, after, hfields, hbefore⟩
    exact ⟨before, after, hfields, by simpa using hkind, fun f hf => by simpa using hbefore f hf⟩
  · rintro ⟨before, after, hfields, hkind, hbefore⟩
    exact ⟨by simpa using hkind, before, after, hfields, fun f hf => by simpa using hbefore f hf⟩

/-- A field of a kind is found wherever one is declared. -/
theorem isSome_firstOfKind? (fields : List Field) (kind : RuleKind) :
    (firstOfKind? fields kind).isSome = fields.any fun g => g.kind == kind := by
  rw [Bool.eq_iff_iff, firstOfKind?, List.find?_isSome, List.any_eq_true]

/-! ## Constructors -/

/-- **Parameters** of constructors behind the inputs and the message, by what they mean. -/
inductive Parameter where
  | dismissal
  | need
  | pattern
  | least
  | most
  | lowest
  | highest
  | dateFormat
  | limitDate
  deriving DecidableEq, Repr

/-- **Parameters of the constructor** of a validator on one input, in order. -/
def ValidatorKind.parameters : ValidatorKind → List Parameter
  | .required => [.dismissal]
  | .email | .onlyNumber | .cpf | .cnpj | .isbn | .creditCard | .ipv4 | .ipv6 | .url => [.dismissal, .need]
  | .pattern => [.pattern, .dismissal, .need]
  | .length => [.least, .most, .dismissal, .need]
  | .password => [.least, .pattern, .dismissal]
  | .numericLimit => [.dismissal, .lowest, .highest, .need]
  | .pastDate | .futureDate => [.dateFormat, .limitDate, .dismissal, .need]
  | .confirmEmail | .confirmPassword | .between => []

/-- **Whether a value is needed**, by the rules that leave it open. -/
def Rule.need? : Rule → Option Bool
  | .email need | .pattern _ need | .length _ _ need | .onlyNumber need | .cpf need | .cnpj need | .isbn need
  | .creditCard need | .numericLimit _ _ need | .ipv4 need | .ipv6 need | .url need | .pastDate _ _ need
  | .futureDate _ _ need => some need
  | .required | .confirmEmail | .password .. | .confirmPassword | .betweenStart | .betweenLimit => none

/-- **Kind of validator** of a rule kind that stands alone. -/
def RuleKind.validator? : RuleKind → Option ValidatorKind
  | .required => some .required
  | .email => some .email
  | .pattern => some .pattern
  | .length => some .length
  | .onlyNumber => some .onlyNumber
  | .password => some .password
  | .cpf => some .cpf
  | .cnpj => some .cnpj
  | .isbn => some .isbn
  | .creditCard => some .creditCard
  | .numericLimit => some .numericLimit
  | .ipv4 => some .ipv4
  | .ipv6 => some .ipv6
  | .url => some .url
  | .pastDate => some .pastDate
  | .futureDate => some .futureDate
  | .confirmEmail | .confirmPassword | .betweenStart | .betweenLimit => none

namespace Field

/-- **Argument of a field** for a parameter, of the parameter's own type. -/
def argument? (f : Field) : Parameter → Option Arg
  | .dismissal => some (.bool f.autoDismiss)
  | .need => f.rule.need?.map .bool
  | .pattern =>
    match f.rule with
    | .pattern pattern _ | .password _ pattern => some (.text pattern)
    | _ => none
  | .least =>
    match f.rule with
    | .length min _ _ | .password min _ => some (.int min)
    | _ => none
  | .most =>
    match f.rule with
    | .length _ max _ => some (.int max)
    | _ => none
  | .lowest =>
    match f.rule with
    | .numericLimit min _ _ => some (.text min)
    | _ => none
  | .highest =>
    match f.rule with
    | .numericLimit _ max _ => some (.text max)
    | _ => none
  | .dateFormat =>
    match f.rule with
    | .pastDate dateFormat _ _ | .futureDate dateFormat _ _ => some (.text dateFormat)
    | _ => none
  | .limitDate =>
    match f.rule with
    | .pastDate _ limitDate _ | .futureDate _ limitDate _ => some (.text limitDate)
    | _ => none

/-! ## Descriptors owed to fields -/

/-- **Source of a field's message**: its resource number unless that is -1, else the quoted text. -/
def source (f : Field) : MessageSource :=
  if f.messageResource = -1 then .literal f.messageText else .resource f.messageResource

/-- **Triggering fields**: those that stand alone, and the dependent ones whose partner kind is declared anywhere. -/
def triggers (fields : List Field) (f : Field) : Bool :=
  match f.kind with
  | .confirmEmail => fields.any fun g => g.kind == .email
  | .confirmPassword => fields.any fun g => g.kind == .password
  | .betweenStart => fields.any fun g => g.kind == .betweenLimit
  | .betweenLimit => false
  | _ => true

/-- **A descriptor describes the validator of a field** among the declared ones. -/
inductive Describes (fields : List Field) (f : Field) : Descriptor → Prop where
  /-- A field that stands alone is the only target, and its rule gives every argument. -/
  | alone {kind : ValidatorKind} {args : List Arg} (hkind : f.kind.validator? = some kind)
      (hargs : kind.parameters.map f.argument? = args.map some) :
      Describes fields f ⟨kind, [f.name], f.source, args⟩
  | confirmsEmail {g : Field} (hkind : f.kind = .confirmEmail) (hfirst : IsFirst fields .email g) :
      Describes fields f ⟨.confirmEmail, [g.name, f.name], f.source, [.bool f.autoDismiss]⟩
  | confirmsPassword {g : Field} (hkind : f.kind = .confirmPassword) (hfirst : IsFirst fields .password g) :
      Describes fields f ⟨.confirmPassword, [g.name, f.name], f.source, [.bool f.autoDismiss]⟩
  /-- A start brings the message and the dismissal of its limit as well. -/
  | between {g : Field} (hkind : f.kind = .betweenStart) (hfirst : IsFirst fields .betweenLimit g) :
      Describes fields f
        ⟨.between, [f.name, g.name], f.source, [.message g.source, .bool f.autoDismiss, .bool g.autoDismiss]⟩

/-- A field that does not trigger resolves to nothing. -/
theorem descriptor?_of_not_triggers {fields : List Field} {f : Field} (h : f.triggers fields = false) :
    f.descriptor? fields = none := by
  obtain ⟨name, rule, resource, quoted, dismiss⟩ := f
  -- only a paired kind can fail to trigger, and then because its partner is not found
  have hnone : ∀ kind, (fields.any fun g => g.kind == kind) = false → firstOfKind? fields kind = none := by
    intro kind hkind
    rw [← isSome_firstOfKind?] at hkind
    simpa using hkind
  cases rule with
  | confirmEmail | confirmPassword | betweenStart =>
    simp only [descriptor?, partner?, kind, Rule.kind, RuleKind.pairing]
    rw [hnone _ h, Option.map_none]
  | betweenLimit => rfl
  | _ => simp [triggers, kind, Rule.kind] at h

/-- **A triggering field** resolves to the descriptor that is owed to it. -/
theorem exists_descriptor?_of_triggers {fields : List Field} {f : Field} (h : f.triggers fields = true) :
    ∃ d, f.descriptor? fields = some d ∧ f.Describes fields d := by
  obtain ⟨name, rule, resource, quoted, dismiss⟩ := f
  have hfirst : ∀ kind, (fields.any fun g => g.kind == kind) = true →
      ∃ g, firstOfKind? fields kind = some g ∧ IsFirst fields kind g := by
    intro kind hkind
    rw [← isSome_firstOfKind?] at hkind
    obtain ⟨g, hg⟩ := Option.isSome_iff_exists.1 hkind
    exact ⟨g, hg, firstOfKind?_eq_some_iff.1 hg⟩
  cases rule with
  | confirmEmail =>
    obtain ⟨g, hg, hpartner⟩ := hfirst _ h
    refine ⟨_, ?_, .confirmsEmail rfl hpartner⟩
    simp only [descriptor?, partner?, kind, Rule.kind, RuleKind.pairing, hg]
    rfl
  | confirmPassword =>
    obtain ⟨g, hg, hpartner⟩ := hfirst _ h
    refine ⟨_, ?_, .confirmsPassword rfl hpartner⟩
    simp only [descriptor?, partner?, kind, Rule.kind, RuleKind.pairing, hg]
    rfl
  | betweenStart =>
    obtain ⟨g, hg, hpartner⟩ := hfirst _ h
    refine ⟨_, ?_, .between rfl hpartner⟩
    simp only [descriptor?, partner?, kind, Rule.kind, RuleKind.pairing, hg]
    rfl
  | betweenLimit => simp [triggers, kind, Rule.kind] at h
  | _ => exact ⟨_, rfl, .alone rfl rfl⟩

end Field

/-! ## The statement -/

/-- What `filterMap` keeps stands beside what `filter` keeps, in the same order. -/
theorem forall₂_filter_filterMap {α β : Type} {p : α → Bool} {g : α → Option β} {r : α → β → Prop} {l : List α}
    (hkept : ∀ a ∈ l, p a = true → ∃ b, g a = some b ∧ r a b) (hdropped : ∀ a ∈ l, p a = false → g a = none) :
    List.Forall₂ r (l.filter p) (l.filterMap g) := by
  induction l with
  | nil => exact .nil
  | cons a l ih =>
    have hrest := ih (fun b hb => hkept b (List.mem_cons_of_mem a hb))
      (fun b hb => hdropped b (List.mem_cons_of_mem a hb))
    cases hp : p a with
    | false =>
      rw [List.filter_cons_of_neg (by simp [hp]), List.filterMap_cons_none (hdropped a List.mem_cons_self hp)]
      exact hrest
    | true =>
      obtain ⟨b, hb, hr⟩ := hkept a List.mem_cons_self hp
      rw [List.filter_cons_of_pos hp, List.filterMap_cons_some hb]
      exact .cons hr hrest

/-- **Resolution, exactly.** The descriptors of a field list are those owed to its triggering fields, one each and in
declaration order. The constructor of its kind takes every one of them, whatever texts the resources have, and makes
the validator that the field calls for. -/
theorem forall₂_describes_resolve (fields : List Field) :
    List.Forall₂
      (fun f d => f.Describes fields d ∧
        ∀ lookup, ∃ v, Validator.ofDescriptor? lookup d = some v ∧ f.validator? lookup fields = some v)
      (fields.filter (Field.triggers fields)) (resolve fields) := by
  refine forall₂_filter_filterMap (fun f _ hf => ?_) (fun f _ hf => Field.descriptor?_of_not_triggers hf)
  obtain ⟨d, hd, hdescribes⟩ := Field.exists_descriptor?_of_triggers hf
  refine ⟨d, hd, hdescribes, fun lookup => ?_⟩
  have hbuilt := f.map_ofDescriptor? lookup fields
  rw [hd, Option.map_some, eq_comm, Option.map_eq_some_iff] at hbuilt
  obtain ⟨v, hv, hsome⟩ := hbuilt
  exact ⟨v, hsome.symm, hv⟩

end FormWiring
