import FormWiring.Proofs.Derivation
import FormWiring.Proofs.HeldOptions

/-!
# Attributes of a field

The attributes of a host field fill two places, one with its rule and one with its action. A place is filled once at
most, and only one of the two may be filled in the end; so a field is validated by the one attribute that names a rule,
or is the action that one bare attribute names, or plays no part.

A rule is accepted exactly if its options are well-formed, but for one thing: before a number two minuses are taken.

Main statement: `FieldRole.acceptsWellFormed_iff`.
-/

set_option autoImplicit false

namespace FormWiring

open Code OptionReader

/-! ## Places -/

section Places

variable {ι α : Type} {Reads : ι → α → Prop}

/-- **Filling a place** with one item after the other: only an empty place can be filled. -/
def FillsOnce (Reads : ι → α → Prop) : Option α → List ι → Option α → Prop
  | place, [], place' => place' = place
  | place, i :: items, place' => place = none ∧ ∃ a, Reads i a ∧ FillsOnce Reads (some a) items place'

theorem fillsOnce_none_none_iff {items : List ι} : FillsOnce Reads none items none ↔ items = [] := by
  cases items with
  | nil => exact ⟨fun _ => rfl, fun _ => rfl⟩
  | cons i items =>
    constructor
    · rintro ⟨-, a, -, h⟩
      cases items with
      | nil => cases h
      | cons => cases h.1
    · intro h
      cases h

theorem fillsOnce_none_some_iff {items : List ι} {a : α} :
    FillsOnce Reads none items (some a) ↔ ∃ i, items = [i] ∧ Reads i a := by
  cases items with
  | nil =>
    constructor
    · intro h
      cases h
    · rintro ⟨i, ⟨⟩, -⟩
  | cons i items =>
    constructor
    · rintro ⟨-, b, hb, h⟩
      cases items with
      | nil =>
        cases h
        exact ⟨i, rfl, hb⟩
      | cons => cases h.1
    · rintro ⟨j, heq, ha⟩
      cases heq
      exact ⟨rfl, a, ha, rfl⟩

end Places

/-! ## Attributes that count -/

/-- **Attributes that name a rule**, by kind. -/
def rulesOf (attributes : List Attribute) : List (RuleKind × AttributeBody) :=
  attributes.filterMap fun a => (a.name.bind RuleKind.ofAttributeName?).map (·, a.body)

/-- **Attributes that name an action.** -/
def actionsOf (attributes : List Attribute) : List (Action × AttributeBody) :=
  attributes.filterMap fun a => (a.name.bind Action.ofAttributeName?).map (·, a.body)

/-- **An action is read** from a bare attribute. -/
def BareAction (i : Action × AttributeBody) (action : Action) : Prop :=
  i.2 = .bare ∧ action = i.1

/-- **A rule is read** from the body of its attribute. -/
def ReadsRule (name : String) (i : RuleKind × AttributeBody) (field : Field) : Prop :=
  Field.ofAttribute name i.1 i.2 = .ok field

namespace FieldRole

section Step

variable {name : String} {r r' : DeclaredRole} {a : Attribute}

theorem rule_eq_none_of_action {label : String} {action : Action} (h : Action.ofAttributeName? label = some action) :
    RuleKind.ofAttributeName? label = none := by
  rw [Option.eq_none_iff_forall_ne_some]
  intro kind hkind
  rw [← RuleKind.ofAttributeName?_eq_some_iff.1 hkind, ofAttributeName?_attributeName] at h
  cases h

theorem step_of_action {label : String} {action : Action} (hname : a.name = some label)
    (haction : Action.ofAttributeName? label = some action) :
    step name r a = .ok r' ↔ r.action = none ∧ a.body = .bare ∧ r' = { r with action := some action } := by
  unfold step
  rw [hname]
  dsimp only
  rw [haction]
  dsimp only
  cases hbody : a.body with
  | bare =>
    dsimp only
    cases hother : r.action with
    | none => simp [eq_comm]
    | some other => simp
  | list inside => simp
  | value => simp

theorem step_of_rule {label : String} {kind : RuleKind} (hname : a.name = some label)
    (hkind : RuleKind.ofAttributeName? label = some kind) :
    step name r a = .ok r' ↔
      r.rule = none ∧ ∃ field, Field.ofAttribute name kind a.body = .ok field ∧ r' = { r with rule := some field } := by
  have haction : Action.ofAttributeName? label = none := by
    rw [← RuleKind.ofAttributeName?_eq_some_iff.1 hkind]
    exact ofAttributeName?_attributeName kind
  unfold step
  rw [hname]
  dsimp only
  rw [haction]
  dsimp only
  rw [hkind]
  dsimp only
  cases hother : r.rule with
  | some other => simp
  | none =>
    rw [if_neg (by simp), FormWiring.bind_eq_ok_iff]
    simp [pure, Except.pure, eq_comm]

/-- **The attributes of a field** fill its places, the rest of them apart. -/
theorem foldlM_step_eq_ok_iff {attributes : List Attribute} :
    attributes.foldlM (step name) r = .ok r' ↔
      FillsOnce BareAction r.action (actionsOf attributes) r'.action ∧
        FillsOnce (ReadsRule name) r.rule (rulesOf attributes) r'.rule := by
  induction attributes generalizing r with
  | nil =>
    obtain ⟨rule, action⟩ := r
    obtain ⟨rule', action'⟩ := r'
    constructor
    · intro h
      cases h
      exact ⟨rfl, rfl⟩
    · rintro ⟨haction, hrule⟩
      cases haction
      cases hrule
      rfl
  | cons a attributes ih =>
    rw [List.foldlM_cons, FormWiring.bind_eq_ok_iff]
    -- an attribute names an action, or a rule, or neither
    cases haction : a.name.bind Action.ofAttributeName? with
    | some action =>
      obtain ⟨label, hname, hlabel⟩ := Option.bind_eq_some_iff.1 haction
      have hactions : actionsOf (a :: attributes) = (action, a.body) :: actionsOf attributes :=
        List.filterMap_cons_some (by rw [haction]; rfl)
      have hrules : rulesOf (a :: attributes) = rulesOf attributes :=
        List.filterMap_cons_none (by rw [hname, Option.bind_some, rule_eq_none_of_action hlabel]; rfl)
      rw [hactions, hrules]
      constructor
      · rintro ⟨r₁, hstep, hrest⟩
        obtain ⟨hnone, hbare, rfl⟩ := (step_of_action hname hlabel).1 hstep
        obtain ⟨hfillsAction, hfillsRule⟩ := ih.1 hrest
        exact ⟨⟨hnone, action, ⟨hbare, rfl⟩, hfillsAction⟩, hfillsRule⟩
      · rintro ⟨⟨hnone, _, ⟨hbare, rfl⟩, hfillsAction⟩, hfillsRule⟩
        exact ⟨_, (step_of_action hname hlabel).2 ⟨hnone, hbare, rfl⟩, ih.2 ⟨hfillsAction, hfillsRule⟩⟩
    | none =>
      have hactions : actionsOf (a :: attributes) = actionsOf attributes :=
        List.filterMap_cons_none (by rw [haction]; rfl)
      rw [hactions]
      cases hrule : a.name.bind RuleKind.ofAttributeName? with
      | some kind =>
        obtain ⟨label, hname, hlabel⟩ := Option.bind_eq_some_iff.1 hrule
        have hrules : rulesOf (a :: attributes) = (kind, a.body) :: rulesOf attributes :=
          List.filterMap_cons_some (by rw [hrule]; rfl)
        rw [hrules]
        constructor
        · rintro ⟨r₁, hstep, hrest⟩
          obtain ⟨hnone, field, hread, rfl⟩ := (step_of_rule hname hlabel).1 hstep
          obtain ⟨hfillsAction, hfillsRule⟩ := ih.1 hrest
          exact ⟨hfillsAction, hnone, field, hread, hfillsRule⟩
        · rintro ⟨hfillsAction, hnone, field, hread, hfillsRule⟩
          exact ⟨_, (step_of_rule hname hlabel).2 ⟨hnone, field, hread, rfl⟩, ih.2 ⟨hfillsAction, hfillsRule⟩⟩
      | none =>
        have hrules : rulesOf (a :: attributes) = rulesOf attributes :=
          List.filterMap_cons_none (by rw [hrule]; rfl)
        have hidle : a.IsIdle := by
          intro label hname
          rw [hname] at haction hrule
          exact ⟨haction, hrule⟩
        rw [hrules, step_of_isIdle name r hidle]
        constructor
        · rintro ⟨r₁, hstep, hrest⟩
          cases hstep
          exact ih.1 hrest
        · exact fun h => ⟨r, rfl, ih.2 h⟩

end Step

/-! ## Roles -/

section Role

variable {f : HostField} {name : String} (hname : f.name = some name)

include hname

theorem ofHostField_eq_ok_iff {role : FieldRole} :
    ofHostField f = .ok role ↔
      ∃ r : DeclaredRole, FillsOnce BareAction none (actionsOf f.attributes) r.action ∧
        FillsOnce (ReadsRule name) none (rulesOf f.attributes) r.rule ∧
          ((∃ field, r.rule = some field ∧ r.action = none ∧ role = .validated field) ∨
            (∃ action, r.rule = none ∧ r.action = some action ∧ role = .action action) ∨
              (r.rule = none ∧ r.action = none ∧ role = .plain)) := by
  unfold ofHostField
  rw [hname]
  dsimp only
  rw [FormWiring.bind_eq_ok_iff]
  refine exists_congr fun r => ?_
  rw [foldlM_step_eq_ok_iff, and_assoc]
  refine and_congr Iff.rfl (and_congr Iff.rfl ?_)
  obtain ⟨rule, action⟩ := r
  cases rule <;> cases action <;> simp [pure, Except.pure, throw, throwThe, MonadExceptOf.throw, eq_comm]

theorem ofHostField_validated_iff {m : Field} :
    ofHostField f = .ok (.validated m) ↔
      actionsOf f.attributes = [] ∧ ∃ kind body, rulesOf f.attributes = [(kind, body)] ∧
        Field.ofAttribute name kind body = .ok m := by
  rw [ofHostField_eq_ok_iff hname]
  constructor
  · rintro ⟨⟨rule, action⟩, haction, hrule, ⟨field, rfl, rfl, ⟨⟩⟩ | ⟨_, -, -, ⟨⟩⟩ | ⟨-, -, ⟨⟩⟩⟩
    obtain ⟨⟨kind, body⟩, hrules, hread⟩ := fillsOnce_none_some_iff.1 hrule
    exact ⟨fillsOnce_none_none_iff.1 haction, kind, body, hrules, hread⟩
  · rintro ⟨hactions, kind, body, hrules, hread⟩
    exact ⟨⟨some m, none⟩, fillsOnce_none_none_iff.2 hactions, fillsOnce_none_some_iff.2 ⟨(kind, body), hrules, hread⟩,
      .inl ⟨m, rfl, rfl, rfl⟩⟩

theorem ofHostField_action_iff {action : Action} :
    ofHostField f = .ok (.action action) ↔
      rulesOf f.attributes = [] ∧ actionsOf f.attributes = [(action, .bare)] := by
  rw [ofHostField_eq_ok_iff hname]
  constructor
  · rintro ⟨⟨rule, action'⟩, haction, hrule, ⟨_, -, -, ⟨⟩⟩ | ⟨_, rfl, rfl, ⟨⟩⟩ | ⟨-, -, ⟨⟩⟩⟩
    obtain ⟨⟨_, _⟩, hactions, rfl, rfl⟩ := fillsOnce_none_some_iff.1 haction
    exact ⟨fillsOnce_none_none_iff.1 hrule, hactions⟩
  · rintro ⟨hrules, hactions⟩
    exact ⟨⟨none, some action⟩, fillsOnce_none_some_iff.2 ⟨(action, .bare), hactions, rfl, rfl⟩,
      fillsOnce_none_none_iff.2 hrules, .inr (.inl ⟨action, rfl, rfl, rfl⟩)⟩

theorem ofHostField_plain_iff :
    ofHostField f = .ok .plain ↔ rulesOf f.attributes = [] ∧ actionsOf f.attributes = [] := by
  rw [ofHostField_eq_ok_iff hname]
  constructor
  · rintro ⟨⟨rule, action⟩, haction, hrule, ⟨_, -, -, ⟨⟩⟩ | ⟨_, -, -, ⟨⟩⟩ | ⟨rfl, rfl, -⟩⟩
    exact ⟨fillsOnce_none_none_iff.1 hrule, fillsOnce_none_none_iff.1 haction⟩
  · rintro ⟨hrules, hactions⟩
    exact ⟨⟨none, none⟩, fillsOnce_none_none_iff.2 hactions, fillsOnce_none_none_iff.2 hrules,
      .inr (.inr ⟨rfl, rfl, rfl⟩)⟩

end Role

end FieldRole

/-! ## Well-formed fields -/

/-- **Rule declared** by a field: one attribute names it, none names an action, and the options given in that attribute
are well-formed, numbers with so many minuses at most. -/
structure HostField.Declares (f : HostField) (most : Nat) (kind : RuleKind) (given : List (String × GivenValue)) :
    Prop where
  noAction : actionsOf f.attributes = []
  oneRule : ∃ body, rulesOf f.attributes = [(kind, body)] ∧ body.Gives given
  accepts : kind.Accepts most given

/-- **Two minuses** before a number, in a rule that is well-formed otherwise. -/
def HostField.HasDoubledMinus (f : HostField) : Prop :=
  ∃ kind given, f.Declares 2 kind given ∧ ∃ option digits, (option, .number 2 digits) ∈ given

/-- **Fields that give the same**: they have one name and one rule, with the same values for each option in the same
order, and no action. -/
def HostField.GivesSame (f f' : HostField) : Prop :=
  f.name = f'.name ∧ actionsOf f.attributes = [] ∧ actionsOf f'.attributes = [] ∧ ∃ kind body body' given given',
    rulesOf f.attributes = [(kind, body)] ∧ rulesOf f'.attributes = [(kind, body')] ∧ body.Gives given ∧
      body'.Gives given' ∧ SameGiven given given'

theorem HostField.GivesSame.symm {f f' : HostField} (h : f.GivesSame f') : f'.GivesSame f := by
  obtain ⟨hname, hnone, hnone', kind, body, body', given, given', hrules, hrules', hgives, hgives', hsame⟩ := h
  exact ⟨hname.symm, hnone', hnone, kind, body', body, given', given, hrules', hrules, hgives', hgives,
    fun option => (hsame option).symm⟩

namespace FieldRole

/-- **Fields are accepted exactly when well-formed**, numbers with so many minuses at most: a field is validated if it
declares a rule, and then by the model that holds what was given. -/
structure AcceptsWellFormed (most : Nat) (f : HostField) (name : String) : Prop where
  accepts : (∃ m, ofHostField f = .ok (.validated m)) ↔ ∃ kind given, f.Declares most kind given
  holds : ∀ m, ofHostField f = .ok (.validated m) ↔
    ∃ kind given, f.Declares most kind given ∧ m.Holds name kind given

section WellFormed

variable {f : HostField} {name : String}

/-- A model of a declared rule is the one that holds what was given. -/
theorem exists_holds_of_declares (hname : f.name = some name) {kind : RuleKind} {given : List (String × GivenValue)}
    (h : f.Declares 2 kind given) : ∃ m, ofHostField f = .ok (.validated m) ∧ m.Holds name kind given := by
  obtain ⟨body, hrules, hgives⟩ := h.oneRule
  obtain ⟨m, hread, hholds⟩ := Field.exists_holds_of_accepts hgives h.accepts
  exact ⟨m, (ofHostField_validated_iff hname).2 ⟨h.noAction, kind, body, hrules, hread⟩, hholds⟩

theorem exists_declares_of_validated (hname : f.name = some name) {m : Field}
    (h : ofHostField f = .ok (.validated m)) : ∃ kind given, f.Declares 2 kind given ∧ m.Holds name kind given := by
  obtain ⟨hactions, kind, body, hrules, hread⟩ := (ofHostField_validated_iff hname).1 h
  obtain ⟨given, hgives, haccepts, hholds⟩ := Field.exists_accepts_of_ofAttribute hread
  exact ⟨kind, given, ⟨hactions, ⟨body, hrules, hgives⟩, haccepts⟩, hholds⟩

/-- With two minuses allowed, fields are accepted exactly when well-formed. -/
theorem acceptsWellFormed_two (hname : f.name = some name) : AcceptsWellFormed 2 f name where
  accepts := by
    constructor
    · rintro ⟨m, hm⟩
      obtain ⟨kind, given, hdeclares, -⟩ := exists_declares_of_validated hname hm
      exact ⟨kind, given, hdeclares⟩
    · rintro ⟨kind, given, hdeclares⟩
      obtain ⟨m, hm, -⟩ := exists_holds_of_declares hname hdeclares
      exact ⟨m, hm⟩
  holds m := by
    constructor
    · exact exists_declares_of_validated hname
    · rintro ⟨kind, given, hdeclares, hholds⟩
      obtain ⟨m', hm', hholds'⟩ := exists_holds_of_declares hname hdeclares
      rw [hholds.unique hholds']
      exact hm'

/-- A field declares one rule with one list of options. -/
theorem declares_unique {most most' : Nat} {kind kind' : RuleKind} {given given' : List (String × GivenValue)}
    (h : f.Declares most kind given) (h' : f.Declares most' kind' given') : kind = kind' ∧ given = given' := by
  obtain ⟨body, hrules, hgives⟩ := h.oneRule
  obtain ⟨body', hrules', hgives'⟩ := h'.oneRule
  rw [hrules] at hrules'
  cases hrules'
  exact ⟨rfl, hgives.unique hgives'⟩

/-- **The order of different options** does not matter. -/
theorem validated_of_givesSame (hname : f.name = some name) {f' : HostField} (hsame : f.GivesSame f') {m : Field}
    (h : ofHostField f = .ok (.validated m)) : ofHostField f' = .ok (.validated m) := by
  obtain ⟨hname', -, hnone', kind, body, body', given, given', hrules, hrules', hgives, hgives', hsame⟩ := hsame
  obtain ⟨kind', given'', hdeclares, hholds⟩ := exists_declares_of_validated hname h
  obtain ⟨body'', hrules'', hgives''⟩ := hdeclares.oneRule
  rw [hrules] at hrules''
  cases hrules''
  obtain rfl := hgives.unique hgives''
  have hdeclares' : f'.Declares 2 kind given' := ⟨hnone', ⟨body', hrules', hgives'⟩, hdeclares.accepts.reordered hsame⟩
  exact ((acceptsWellFormed_two (hname'.symm.trans hname)).holds m).2 ⟨kind, given', hdeclares', hholds.reordered hsame⟩

/-- A value is of its type with one minus at most if it is with two, and has not got two. -/
theorem admits_one_iff {type : OptionType} {v : GivenValue} :
    type.Admits 1 v ↔ type.Admits 2 v ∧ ∀ digits, v ≠ .number 2 digits := by
  cases type with
  | text =>
    refine ⟨?_, And.left⟩
    rintro ⟨s, rfl⟩
    exact ⟨⟨s, rfl⟩, nofun⟩
  | truth =>
    refine ⟨?_, And.left⟩
    rintro ⟨b, rfl⟩
    exact ⟨⟨b, rfl⟩, nofun⟩
  | number =>
    cases v with
    | text => exact ⟨fun _ => ⟨trivial, nofun⟩, fun _ => trivial⟩
    | truth => exact ⟨fun h => h.elim, fun h => h.1.elim⟩
    | number minuses digits =>
      constructor
      · intro (h : minuses ≤ 1)
        refine ⟨Nat.le_succ_of_le h, ?_⟩
        rintro _ ⟨⟩
        omega
      · rintro ⟨h, hne⟩
        change minuses ≤ 2 at h
        have hminuses : minuses ≠ 2 := by
          rintro rfl
          exact hne digits rfl
        exact Nat.le_of_lt_succ (Nat.lt_of_le_of_ne h hminuses)

theorem declares_one_iff {kind : RuleKind} {given : List (String × GivenValue)} :
    f.Declares 1 kind given ↔ f.Declares 2 kind given ∧ ∀ option digits, (option, .number 2 digits) ∉ given := by
  constructor
  · intro h
    have haccepts := h.accepts
    refine ⟨⟨h.noAction, h.oneRule, { haccepts with typed := ?_ }⟩, ?_⟩
    · exact fun g hg => (admits_one_iff.1 (haccepts.typed g hg)).1
    · exact fun option digits hmem => (admits_one_iff.1 (haccepts.typed _ hmem)).2 digits rfl
  · rintro ⟨h, hsingle⟩
    refine ⟨h.noAction, h.oneRule, { h.accepts with typed := ?_ }⟩
    rintro ⟨option, v⟩ hg
    refine admits_one_iff.2 ⟨h.accepts.typed _ hg, ?_⟩
    rintro digits rfl
    exact hsingle option digits hg

/-- **Roles of a host field.** With two minuses before a number, fields are accepted exactly when well-formed; with one,
so are all but those that have two somewhere. In which order different options stand does not matter. A field is an
action if one attribute names it, that one is bare and none names a rule, and it plays no part if no attribute names
either. -/
theorem acceptsWellFormed_iff (hname : f.name = some name) :
    AcceptsWellFormed 2 f name ∧ (AcceptsWellFormed 1 f name ↔ ¬ f.HasDoubledMinus) ∧
      (∀ f', f.GivesSame f' → ∀ m, ofHostField f = .ok (.validated m) ↔ ofHostField f' = .ok (.validated m)) ∧
      (∀ action, ofHostField f = .ok (.action action) ↔
        rulesOf f.attributes = [] ∧ actionsOf f.attributes = [(action, .bare)]) ∧
      (ofHostField f = .ok .plain ↔ rulesOf f.attributes = [] ∧ actionsOf f.attributes = []) := by
  have htwo := acceptsWellFormed_two hname
  refine ⟨htwo, ⟨?_, ?_⟩, ?_, fun action => ofHostField_action_iff hname, ofHostField_plain_iff hname⟩
  · -- a doubled minus is accepted, and would be the one of the same options without it
    rintro hone ⟨kind, given, hdeclares, option, digits, hmem⟩
    obtain ⟨kind', given', hdeclares'⟩ := hone.accepts.1 (htwo.accepts.2 ⟨kind, given, hdeclares⟩)
    obtain ⟨rfl, rfl⟩ := declares_unique hdeclares hdeclares'
    exact (declares_one_iff.1 hdeclares').2 option digits hmem
  · intro hsingle
    have hsame (kind : RuleKind) (given : List (String × GivenValue)) :
        f.Declares 1 kind given ↔ f.Declares 2 kind given := by
      refine declares_one_iff.trans ⟨And.left, fun h => ⟨h, fun option digits hmem => ?_⟩⟩
      exact hsingle ⟨kind, given, h, option, digits, hmem⟩
    constructor
    · simp only [hsame]
      exact htwo.accepts
    · simp only [hsame]
      exact htwo.holds
  · intro f' hsame m
    exact ⟨validated_of_givesSame hname hsame, validated_of_givesSame (hsame.1.symm.trans hname) hsame.symm⟩

end WellFormed

/-- **Two minuses before a limit**: `#[numeric_limit(min = --5, max = 1)]`. -/
def doubledMinusField : HostField where
  name := some "a"
  attributes := [⟨some "numeric_limit", .list [.word "min", .mark '=' false, .mark '-' true, .mark '-' false,
    .literal "5", .mark ',' false, .word "max", .mark '=' false, .literal "1"]⟩]

theorem acceptsWellFormed_doubledMinus :
    doubledMinusField.name = some "a" ∧ doubledMinusField.HasDoubledMinus ∧
      ¬ AcceptsWellFormed 1 doubledMinusField "a" ∧
        ofHostField doubledMinusField = .ok (.validated { name := "a", rule := .numericLimit "--5" "1" true }) := by
  have hdouble : doubledMinusField.HasDoubledMinus := by
    refine ⟨.numericLimit, [("min", .number 2 "5"), ("max", .number 0 "1")], ⟨rfl, ⟨_, rfl, .list ?_⟩, ?_⟩, "min", "5",
      List.mem_cons_self⟩
    · exact .cons ⟨false, _, rfl, .number [true, false] rfl⟩ (.cons ⟨false, _, rfl, .number [] rfl⟩ .nil)
    · exact ⟨by simp [RuleKind.options], by simp [OptionType.ofName, OptionType.Admits, GivenValue.IsNumeric],
        by simp [RuleKind.mandatory], by simp, nofun⟩
  obtain ⟨-, hone, -⟩ := acceptsWellFormed_iff (f := doubledMinusField) rfl
  exact ⟨rfl, hdouble, fun h => hone.1 h hdouble, rfl⟩

end FieldRole

end FormWiring
