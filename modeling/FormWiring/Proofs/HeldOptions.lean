import FormWiring.Proofs.GivenOptions
import FormWiring.Proofs.ModelRoundTrip
import FormWiring.Proofs.ValidatorCode

/-!
# What a field holds of its options

The attribute of a rule makes a field if its options are well-formed: each is an option of the kind with a value of its
type, nothing mandatory is missing, and what must be an integer is one. The field then holds under every option of its
kind the value last given, or the default. In which order different options stand does not matter.

Numbers are taken with two minuses before them, where one is meant.

Main statements: `Field.exists_accepts_of_ofAttribute`, `Field.exists_holds_of_accepts`.
-/

set_option autoImplicit false

namespace FormWiring

open Code OptionReader

/-! ## Values held -/

namespace RuleKind

/-- **Mandatory options** of a kind. -/
def mandatory : RuleKind → List String
  | .pattern => ["pattern"]
  | .numericLimit => ["min", "max"]
  | .pastDate | .futureDate => ["date_format", "limit_date"]
  | _ => []

/-- **Bounds that are integers**, so far as the kind has them. -/
def bounds : RuleKind → List String
  | .length | .password => ["min", "max"]
  | _ => []

/-- **What a field holds** of a value given to an option. A number is an integer, except for the limits that are kept as
texts. -/
def held? (kind : RuleKind) (option : String) (v : GivenValue) : Option Datum :=
  match OptionType.ofName option with
  | .text => v.text?.map .text
  | .truth => v.truth?.map .bool
  | .number =>
    if kind = .numericLimit ∧ option ≠ "error_message_res" then some (.text v.digits)
    else (Text.decimalInteger? v.digits).map .int

end RuleKind

/-- **Default of an option** that is not mandatory. -/
def defaultOf (option : String) : Datum :=
  match option with
  | "error_message_res" => .int unsetResource.toInt
  | "auto_dismiss" | "required" => .bool true
  | "min" | "max" => .int 0
  | _ => .text ""

/-- **What a field has under an option**: the value last given, or the default. -/
def RuleKind.heldUnder (kind : RuleKind) (get : String → Option GivenValue) (option : String) : Option Datum :=
  match get option with
  | some v => kind.held? option v
  | none => some (defaultOf option)

namespace RuleOptions

theorem exists_bind_pure_iff {ε α β : Type} {x : Except ε α} {f : α → β} :
    (∃ b, (x >>= fun a => pure (f a)) = .ok b) ↔ ∃ a, x = .ok a := by
  cases x with
  | error e => exact ⟨fun ⟨_, h⟩ => (nomatch h), fun ⟨_, h⟩ => (nomatch h)⟩
  | ok a => exact ⟨fun _ => ⟨a, rfl⟩, fun _ => ⟨f a, rfl⟩⟩

theorem exists_bind_bind_pure_iff {ε α β γ : Type} {x : Except ε α} {y : Except ε β} {f : α → β → γ} :
    (∃ c, (x >>= fun a => y >>= fun b => pure (f a b)) = .ok c) ↔ (∃ a, x = .ok a) ∧ ∃ b, y = .ok b := by
  cases x with
  | error e => exact ⟨fun ⟨_, h⟩ => (nomatch h), fun ⟨⟨_, h⟩, _⟩ => (nomatch h)⟩
  | ok a => exact exists_bind_pure_iff.trans ⟨fun h => ⟨⟨a, rfl⟩, h⟩, And.right⟩

theorem demand_eq_ok_iff {kind : RuleKind} {option s : String} {x : Option String} :
    demand kind option x = .ok s ↔ x = some s := by
  cases x with
  | none => exact ⟨nofun, nofun⟩
  | some s' => simp [demand]

theorem bound_eq_ok_iff {x : Option String} {n : Int64} :
    bound x = .ok n ↔ (x = none ∧ n = 0) ∨ ∃ s, x = some s ∧ decimalInt64? s = some n := by
  cases x with
  | none => simp [bound, eq_comm]
  | some s =>
    unfold bound
    dsimp only
    cases h : decimalInt64? s <;> simp [h]

/-- An integer of 64 bits is the integer of its text. -/
theorem toInt_of_decimalInt64? {s : String} {n : Int64} (h : decimalInt64? s = some n) :
    Text.decimalInteger? s = some n.toInt := by
  obtain ⟨i, hi, hn⟩ := Option.bind_eq_some_iff.1 h
  split at hn
  · next hrange =>
    cases hn
    rw [Int64.toInt_minValue, Int64.toInt_maxValue] at hrange
    rw [hi, Int64.toInt_ofInt_of_le hrange.1 (by omega)]
  · cases hn

/-- An integer of 32 bits is the integer of its text. -/
theorem toInt_of_decimalInt32? {s : String} {n : Int32} (h : decimalInt32? s = some n) :
    Text.decimalInteger? s = some n.toInt := by
  obtain ⟨i, hi, hn⟩ := Option.bind_eq_some_iff.1 h
  split at hn
  · next hrange =>
    cases hn
    rw [Int32.toInt_minValue, Int32.toInt_maxValue] at hrange
    rw [hi, Int32.toInt_ofInt_of_le hrange.1 (by omega)]
  · cases hn

section Held

variable {kind : RuleKind} {get : String → Option GivenValue}

/-- A mandatory text. -/
theorem heldUnder_of_demand_text {option s : String} (htype : OptionType.ofName option = .text)
    (h : demand kind option ((get option).bind GivenValue.text?) = .ok s) :
    kind.heldUnder get option = some (.text s) := by
  obtain ⟨v, hv, hs⟩ := Option.bind_eq_some_iff.1 (demand_eq_ok_iff.1 h)
  unfold RuleKind.heldUnder
  rw [hv]
  dsimp only
  rw [RuleKind.held?, htype]
  dsimp only
  rw [hs]
  rfl

/-- A mandatory limit, which is kept as a text. -/
theorem heldUnder_of_demand_digits (hkind : kind = .numericLimit) {option s : String}
    (hoption : option = "min" ∨ option = "max")
    (h : demand kind option ((get option).bind GivenValue.digits?) = .ok s) :
    kind.heldUnder get option = some (.text s) := by
  obtain ⟨v, hv, hs⟩ := Option.bind_eq_some_iff.1 (demand_eq_ok_iff.1 h)
  obtain ⟨-, rfl⟩ := GivenValue.digits?_eq_some_iff.1 hs
  unfold RuleKind.heldUnder
  rw [hv, hkind]
  rcases hoption with rfl | rfl <;> rfl

variable (hget : ∀ option v, get option = some v → Fits option v)

include hget

theorem text_of_get {option : String} (htype : OptionType.ofName option = .text) {v : GivenValue}
    (hv : get option = some v) : ∃ s, v = .text s := by
  have hadmits := (hget option v hv).1
  rwa [htype] at hadmits

theorem truth_of_get {option : String} (htype : OptionType.ofName option = .truth) {v : GivenValue}
    (hv : get option = some v) : ∃ b, v = .truth b := by
  have hadmits := (hget option v hv).1
  rwa [htype] at hadmits

theorem digits?_of_get {option : String} (htype : OptionType.ofName option = .number) {v : GivenValue}
    (hv : get option = some v) : v.digits? = some v.digits := by
  have hadmits := (hget option v hv).1
  rw [htype] at hadmits
  exact GivenValue.digits?_eq_some_iff.2 ⟨hadmits, rfl⟩

/-- A text that may be left out. -/
theorem heldUnder_text {option : String} (htype : OptionType.ofName option = .text)
    (hdefault : defaultOf option = .text "") :
    kind.heldUnder get option = some (.text (((get option).bind GivenValue.text?).getD "")) := by
  unfold RuleKind.heldUnder
  cases hv : get option with
  | none => exact congrArg some hdefault
  | some v =>
    obtain ⟨s, rfl⟩ := text_of_get hget htype hv
    dsimp only
    rw [RuleKind.held?, htype]
    rfl

/-- A truth value. -/
theorem heldUnder_truth {option : String} (htype : OptionType.ofName option = .truth)
    (hdefault : defaultOf option = .bool true) :
    kind.heldUnder get option = some (.bool (((get option).bind GivenValue.truth?).getD true)) := by
  unfold RuleKind.heldUnder
  cases hv : get option with
  | none => exact congrArg some hdefault
  | some v =>
    obtain ⟨b, rfl⟩ := truth_of_get hget htype hv
    dsimp only
    rw [RuleKind.held?, htype]
    rfl

/-- An integer bound. -/
theorem heldUnder_of_bound (hkind : kind ≠ .numericLimit) {option : String} (hoption : option = "min" ∨ option = "max")
    {n : Int64} (h : bound ((get option).bind GivenValue.digits?) = .ok n) :
    kind.heldUnder get option = some (.int n.toInt) := by
  have htype : OptionType.ofName option = .number := by
    rcases hoption with rfl | rfl <;> rfl
  unfold RuleKind.heldUnder
  cases hv : get option with
  | none =>
    rw [hv] at h
    cases h
    rcases hoption with rfl | rfl <;> rfl
  | some v =>
    rw [hv, Option.bind_some, digits?_of_get hget htype hv] at h
    obtain ⟨⟨⟩, -⟩ | ⟨s, hs, hn⟩ := bound_eq_ok_iff.1 h
    cases hs
    dsimp only
    rw [RuleKind.held?, htype]
    dsimp only
    rw [if_neg fun hlimit => hkind hlimit.1, toInt_of_decimalInt64? hn]
    rfl

/-- The integer of a message resource. -/
theorem heldUnder_resource : kind.heldUnder get "error_message_res" =
    some (.int (((get "error_message_res").bind fun v => v.digits?.bind decimalInt32?).getD unsetResource).toInt) := by
  unfold RuleKind.heldUnder
  cases hv : get "error_message_res" with
  | none => rfl
  | some v =>
    obtain ⟨id, hid⟩ := Option.isSome_iff_exists.1 ((hget _ v hv).2 rfl)
    rw [Option.bind_some, digits?_of_get hget rfl hv, Option.bind_some, hid]
    change (if kind = .numericLimit ∧ "error_message_res" ≠ "error_message_res" then _
      else (Text.decimalInteger? v.digits).map Datum.int) = _
    rw [if_neg (by simp), toInt_of_decimalInt32? hid]
    rfl

/-- **A rule holds what was given**: under each own option of its kind stands the value last given, or the default. -/
theorem heldUnder_of_toRule {rule : Rule} (h : (ofGiven get).toRule kind = .ok rule) :
    rule.kind = kind ∧ ∀ option ∈ kind.options, Datum.entry? option rule.toEntries = kind.heldUnder get option := by
  have hrequired : kind.heldUnder get "required" = some (.bool ((ofGiven get).required.getD true)) :=
    heldUnder_truth hget rfl rfl
  unfold toRule at h
  -- kind by kind, as the table of rules has them
  cases kind
  case required | confirmEmail | confirmPassword | betweenStart | betweenLimit =>
    cases h
    exact ⟨rfl, nofun⟩
  case pattern =>
    obtain ⟨regex, hregex, h⟩ := FormWiring.bind_eq_ok_iff.1 h
    cases h
    have hregex := heldUnder_of_demand_text rfl hregex
    exact ⟨rfl, by simp [RuleKind.options, Rule.toEntries, Datum.entry?_cons, hregex, hrequired]⟩
  case length =>
    obtain ⟨min, hmin, h⟩ := FormWiring.bind_eq_ok_iff.1 h
    obtain ⟨max, hmax, h⟩ := FormWiring.bind_eq_ok_iff.1 h
    cases h
    have hmin : RuleKind.length.heldUnder get "min" = some (.int min.toInt) :=
      heldUnder_of_bound hget (by decide) (.inl rfl) hmin
    have hmax : RuleKind.length.heldUnder get "max" = some (.int max.toInt) :=
      heldUnder_of_bound hget (by decide) (.inr rfl) hmax
    exact ⟨rfl, by simp [RuleKind.options, Rule.toEntries, Datum.entry?_cons, hmin, hmax, hrequired]⟩
  case password =>
    obtain ⟨min, hmin, h⟩ := FormWiring.bind_eq_ok_iff.1 h
    cases h
    have hmin : RuleKind.password.heldUnder get "min" = some (.int min.toInt) :=
      heldUnder_of_bound hget (by decide) (.inl rfl) hmin
    have hregex : RuleKind.password.heldUnder get "pattern" = some (.text ((ofGiven get).pattern.getD "")) :=
      heldUnder_text hget rfl rfl
    exact ⟨rfl, by simp [RuleKind.options, Rule.toEntries, Datum.entry?_cons, hmin, hregex]⟩
  case numericLimit =>
    obtain ⟨min, hmin, h⟩ := FormWiring.bind_eq_ok_iff.1 h
    obtain ⟨max, hmax, h⟩ := FormWiring.bind_eq_ok_iff.1 h
    cases h
    have hmin := heldUnder_of_demand_digits rfl (.inl rfl) hmin
    have hmax := heldUnder_of_demand_digits rfl (.inr rfl) hmax
    exact ⟨rfl, by simp [RuleKind.options, Rule.toEntries, Datum.entry?_cons, hmin, hmax, hrequired]⟩
  case pastDate | futureDate =>
    obtain ⟨format, hformat, h⟩ := FormWiring.bind_eq_ok_iff.1 h
    obtain ⟨limit, hlimit, h⟩ := FormWiring.bind_eq_ok_iff.1 h
    cases h
    have hformat := heldUnder_of_demand_text rfl hformat
    have hlimit := heldUnder_of_demand_text rfl hlimit
    exact ⟨rfl, by simp [RuleKind.options, Rule.toEntries, Datum.entry?_cons, hformat, hlimit, hrequired]⟩
  -- the other kinds have a flag and nothing else
  all_goals
    cases h
    exact ⟨rfl, by simp [RuleKind.options, Rule.toEntries, Datum.entry?_cons, hrequired]⟩

theorem exists_demand_text_iff {k : RuleKind} {option : String} (htype : OptionType.ofName option = .text) :
    (∃ s, demand k option ((get option).bind GivenValue.text?) = .ok s) ↔ (get option).isSome = true := by
  simp only [demand_eq_ok_iff]
  cases hv : get option with
  | none => simp
  | some v =>
    obtain ⟨s, rfl⟩ := text_of_get hget htype hv
    simp [GivenValue.text?]

theorem exists_demand_digits_iff {k : RuleKind} {option : String} (htype : OptionType.ofName option = .number) :
    (∃ s, demand k option ((get option).bind GivenValue.digits?) = .ok s) ↔ (get option).isSome = true := by
  simp only [demand_eq_ok_iff]
  cases hv : get option with
  | none => simp
  | some v => simp [digits?_of_get hget htype hv]

theorem exists_bound_iff {option : String} (htype : OptionType.ofName option = .number) :
    (∃ n, bound ((get option).bind GivenValue.digits?) = .ok n) ↔
      ∀ v, get option = some v → (decimalInt64? v.digits).isSome = true := by
  simp only [bound_eq_ok_iff]
  cases hv : get option with
  | none => simp
  | some v => simp [digits?_of_get hget htype hv, Option.isSome_iff_exists]

/-- **There is a rule** if what is mandatory is given and the bounds are integers. -/
theorem exists_toRule_iff (hknown : ∀ option v, get option = some v → HasOption kind option) :
    (∃ rule, (ofGiven get).toRule kind = .ok rule) ↔
      (∀ option ∈ kind.mandatory, (get option).isSome = true) ∧
        ∀ option ∈ kind.bounds, ∀ v, get option = some v → (decimalInt64? v.digits).isSome = true := by
  have hmin := exists_bound_iff hget (show OptionType.ofName "min" = .number from rfl)
  have hmax := exists_bound_iff hget (show OptionType.ofName "max" = .number from rfl)
  unfold toRule
  cases kind
  case pattern =>
    have hregex := exists_demand_text_iff (k := .pattern) hget (show OptionType.ofName "pattern" = .text from rfl)
    refine exists_bind_pure_iff.trans (hregex.trans ?_)
    simp [RuleKind.mandatory, RuleKind.bounds]
  case length =>
    refine exists_bind_bind_pure_iff.trans ((and_congr hmin hmax).trans ?_)
    simp [RuleKind.mandatory, RuleKind.bounds]
  case password =>
    -- a password has no upper bound, so none is given
    have hnone : get "max" = none := by
      rw [Option.eq_none_iff_forall_ne_some]
      intro v hv
      exact absurd (hknown "max" v hv) (by decide)
    refine exists_bind_pure_iff.trans (hmin.trans ?_)
    simp [RuleKind.mandatory, RuleKind.bounds, hnone]
  case numericLimit =>
    have hlow := exists_demand_digits_iff (k := .numericLimit) hget (show OptionType.ofName "min" = .number from rfl)
    have hhigh := exists_demand_digits_iff (k := .numericLimit) hget (show OptionType.ofName "max" = .number from rfl)
    refine exists_bind_bind_pure_iff.trans ((and_congr hlow hhigh).trans ?_)
    simp [RuleKind.mandatory, RuleKind.bounds]
  case pastDate =>
    have hformat := exists_demand_text_iff (k := .pastDate) hget (show OptionType.ofName "date_format" = .text from rfl)
    have hlimit := exists_demand_text_iff (k := .pastDate) hget (show OptionType.ofName "limit_date" = .text from rfl)
    refine exists_bind_bind_pure_iff.trans ((and_congr hformat hlimit).trans ?_)
    simp [RuleKind.mandatory, RuleKind.bounds]
  case futureDate =>
    have hformat :=
      exists_demand_text_iff (k := .futureDate) hget (show OptionType.ofName "date_format" = .text from rfl)
    have hlimit := exists_demand_text_iff (k := .futureDate) hget (show OptionType.ofName "limit_date" = .text from rfl)
    refine exists_bind_bind_pure_iff.trans ((and_congr hformat hlimit).trans ?_)
    simp [RuleKind.mandatory, RuleKind.bounds]
  all_goals
    simp [RuleKind.mandatory, RuleKind.bounds, pure, Except.pure]

end Held
end RuleOptions

/-! ## Well-formed attributes -/

/-- **Options given in a body**: none where there is no group, else one in each part of it. -/
inductive AttributeBody.Gives : AttributeBody → List (String × GivenValue) → Prop where
  | bare : Gives .bare []
  | list {inside : List Token} {given : List (String × GivenValue)}
      (h : List.Forall₂ (fun g p => g.2.SpellsOption g.1 p) given (optionParts inside)) : Gives (.list inside) given

/-- **Well-formed options** of a kind, numbers with so many minuses at most: each is an option of the kind with a value
of its type, nothing mandatory is missing, and what must be an integer is one. -/
structure RuleKind.Accepts (kind : RuleKind) (most : Nat) (given : List (String × GivenValue)) : Prop where
  options : ∀ g ∈ given, g.1 ∈ commonOptions ∨ g.1 ∈ kind.options
  typed : ∀ g ∈ given, (OptionType.ofName g.1).Admits most g.2
  mandatory : ∀ option ∈ kind.mandatory, ∃ v, (option, v) ∈ given
  resources : ∀ v, ("error_message_res", v) ∈ given → (decimalInt32? v.digits).isSome = true
  bounds : ∀ option ∈ kind.bounds, ∀ v, lastGiven given option = some v → (decimalInt64? v.digits).isSome = true

/-- **A field holds what was given**: under every option of its kind the value last given, or the default. -/
structure Field.Holds (m : Field) (name : String) (kind : RuleKind) (given : List (String × GivenValue)) : Prop where
  name_eq : m.name = name
  kind_eq : m.kind = kind
  options : ∀ option, RuleOptions.HasOption kind option →
    m.toDatum.get? option = kind.heldUnder (lastGiven given) option

/-- **The order of different options** does not matter for their being well-formed. -/
theorem RuleKind.Accepts.reordered {kind : RuleKind} {most : Nat} {given given' : List (String × GivenValue)}
    (h : kind.Accepts most given) (hsame : SameGiven given given') : kind.Accepts most given' where
  options g hg := h.options g ((hsame.mem_iff g).2 hg)
  typed g hg := h.typed g ((hsame.mem_iff g).2 hg)
  mandatory option hoption := by
    obtain ⟨v, hv⟩ := h.mandatory option hoption
    exact ⟨v, (hsame.mem_iff _).1 hv⟩
  resources v hv := h.resources v ((hsame.mem_iff _).2 hv)
  bounds := by
    rw [← hsame.lastGiven_eq]
    exact h.bounds

/-- **The order of different options** does not matter for what a field holds. -/
theorem Field.Holds.reordered {m : Field} {name : String} {kind : RuleKind}
    {given given' : List (String × GivenValue)} (h : m.Holds name kind given) (hsame : SameGiven given given') :
    m.Holds name kind given' where
  name_eq := h.name_eq
  kind_eq := h.kind_eq
  options := by
    rw [← hsame.lastGiven_eq]
    exact h.options

namespace Field

open RuleOptions

section Attribute

variable {name : String} {kind : RuleKind} {given : List (String × GivenValue)} {m : Field}

/-- What is read option by option becomes a field by its kind. -/
theorem ofAttribute_eq_ok_iff {body : AttributeBody} :
    ofAttribute name kind body = .ok m ↔
      ∃ given, body.Gives given ∧ (∀ g ∈ given, HasOption kind g.1 ∧ Fits g.1 g.2) ∧
        (ofGiven (lastGiven given)).toField name kind = .ok m := by
  unfold ofAttribute
  cases body with
  | bare =>
    constructor
    · exact fun h => ⟨[], .bare, nofun, h⟩
    · rintro ⟨given, ⟨⟩, -, h⟩
      exact h
  | list inside =>
    refine FormWiring.bind_eq_ok_iff.trans ?_
    constructor
    · rintro ⟨o, ho, h⟩
      obtain ⟨given, hspells, hfits, rfl⟩ := foldOptions_step_eq_ok_iff.1 ho
      exact ⟨given, .list hspells, hfits, h⟩
    · rintro ⟨given, ⟨⟩ | hspells, hfits, h⟩
      exact ⟨_, foldOptions_step_eq_ok_iff.2 ⟨given, hspells, hfits, rfl⟩, h⟩
  | value =>
    constructor
    · intro h
      cases h
    · rintro ⟨given, ⟨⟩, -, -⟩

theorem holds_of_toField (hfits : ∀ g ∈ given, HasOption kind g.1 ∧ Fits g.1 g.2)
    (h : (ofGiven (lastGiven given)).toField name kind = .ok m) : m.Holds name kind given := by
  have hget : ∀ option v, lastGiven given option = some v → Fits option v :=
    fun option v hv => (hfits _ (mem_of_lastGiven hv)).2
  obtain ⟨rule, hrule, h⟩ := FormWiring.bind_eq_ok_iff.1 h
  cases h
  obtain ⟨hkind, hheld⟩ := heldUnder_of_toRule hget hrule
  refine ⟨rfl, hkind, ?_⟩
  -- the options of every rule stand beside the parameters, the own ones among them
  rintro option (hcommon | hown)
  · have hsubset : commonOptions ⊆ ["name", "rule", "error_message_res", "error_message", "auto_dismiss"] := by decide
    have hnot : option ∉ rule.kind.options := RuleKind.not_mem_options (hsubset hcommon) _
    rw [get?_toDatum_of_not_mem _ hnot]
    simp only [commonOptions, List.mem_cons, List.not_mem_nil, or_false] at hcommon
    rcases hcommon with rfl | rfl | rfl
    · rw [heldUnder_text hget rfl rfl]
      rfl
    · rw [heldUnder_resource hget]
      rfl
    · rw [heldUnder_truth hget rfl rfl]
      rfl
  · rw [get?_toDatum_of_mem _ (by rwa [Field.kind, hkind])]
    exact hheld option hown

theorem exists_toField_iff (hfits : ∀ g ∈ given, HasOption kind g.1 ∧ Fits g.1 g.2) :
    (∃ m, (ofGiven (lastGiven given)).toField name kind = .ok m) ↔
      (∀ option ∈ kind.mandatory, ∃ v, (option, v) ∈ given) ∧
        ∀ option ∈ kind.bounds, ∀ v, lastGiven given option = some v → (decimalInt64? v.digits).isSome = true := by
  have hgiven := fun option v (hv : lastGiven given option = some v) => hfits _ (mem_of_lastGiven hv)
  refine exists_bind_pure_iff.trans ?_
  rw [exists_toRule_iff (fun option v hv => (hgiven option v hv).2) fun option v hv => (hgiven option v hv).1]
  simp only [isSome_lastGiven_iff]

/-- An attribute is accepted when its options are well-formed, two minuses before a number included. -/
theorem accepts_iff : kind.Accepts 2 given ↔
    (∀ g ∈ given, HasOption kind g.1 ∧ Fits g.1 g.2) ∧
      (∀ option ∈ kind.mandatory, ∃ v, (option, v) ∈ given) ∧
        ∀ option ∈ kind.bounds, ∀ v, lastGiven given option = some v → (decimalInt64? v.digits).isSome = true := by
  constructor
  · intro h
    refine ⟨fun g hg => ⟨h.options g hg, h.typed g hg, ?_⟩, h.mandatory, h.bounds⟩
    intro hname
    exact h.resources g.2 (hname ▸ hg)
  · rintro ⟨hfits, hmandatory, hbounds⟩
    exact ⟨fun g hg => (hfits g hg).1, fun g hg => (hfits g hg).2.1, hmandatory,
      fun v hv => (hfits _ hv).2.2 rfl, hbounds⟩

/-- **A field comes from well-formed options**, and holds them. -/
theorem exists_accepts_of_ofAttribute {body : AttributeBody} (h : ofAttribute name kind body = .ok m) :
    ∃ given, body.Gives given ∧ kind.Accepts 2 given ∧ m.Holds name kind given := by
  obtain ⟨given, hgives, hfits, hfield⟩ := ofAttribute_eq_ok_iff.1 h
  have hrest := (exists_toField_iff hfits).1 ⟨m, hfield⟩
  exact ⟨given, hgives, accepts_iff.2 ⟨hfits, hrest⟩, holds_of_toField hfits hfield⟩

/-- **Well-formed options make a field** that holds them. -/
theorem exists_holds_of_accepts {body : AttributeBody} (hgives : body.Gives given) (haccepts : kind.Accepts 2 given) :
    ∃ m, ofAttribute name kind body = .ok m ∧ m.Holds name kind given := by
  obtain ⟨hfits, hrest⟩ := accepts_iff.1 haccepts
  obtain ⟨m, hm⟩ := (exists_toField_iff hfits).2 hrest
  exact ⟨m, ofAttribute_eq_ok_iff.2 ⟨given, hgives, hfits, hm⟩, holds_of_toField hfits hm⟩

end Attribute

end Field

/-! ## What determines a field -/

/-- A field is put together from what its record has under its keys. -/
theorem Field.ofParts?_toDatum (m : Field) : Field.ofParts? (fun key => m.toDatum.get? key) m.kind = some m := by
  have htag : (m.toDatum.get? "rule").bind (RuleKind.ofTag? .json) = some m.kind :=
    RuleKind.ofAttributeName?_eq_some_iff.2 rfl
  have hread : ((m.toDatum.get? "rule").bind (RuleKind.ofTag? .json)).bind
      (Field.ofParts? fun key => m.toDatum.get? key) = some m :=
    (Field.ofDatum?_record .json _).symm.trans m.ofDatum?_toDatum
  rwa [htag, Option.bind_some] at hread

/-- **One field holds what was given.** -/
theorem Field.Holds.unique {m m' : Field} {name : String} {kind : RuleKind} {given : List (String × GivenValue)}
    (h : m.Holds name kind given) (h' : m'.Holds name kind given) : m = m' := by
  have hkind : m.kind = m'.kind := h.kind_eq.trans h'.kind_eq.symm
  have hsame : ∀ key ∈ Field.keys m'.kind, m.toDatum.get? key = m'.toDatum.get? key := by
    intro key hkey
    rw [h'.kind_eq, Field.keys, List.mem_cons, List.mem_cons, List.mem_append] at hkey
    rcases hkey with rfl | rfl | hown | hcommon
    · exact congrArg (fun s => some (Datum.text s)) (h.name_eq.trans h'.name_eq.symm)
    · exact congrArg (fun k => some (Datum.text (RuleKind.attributeName k))) hkind
    · exact (h.options key (.inr hown)).trans (h'.options key (.inr hown)).symm
    · have hsubset : ["error_message_res", "error_message", "auto_dismiss"] ⊆ commonOptions := by decide
      have hoption : RuleOptions.HasOption kind key := .inl (hsubset hcommon)
      exact (h.options key hoption).trans (h'.options key hoption).symm
  have hread := m.ofParts?_toDatum
  rw [hkind, Field.ofParts?_congr hsame, m'.ofParts?_toDatum] at hread
  exact (Option.some.inj hread).symm

/-! ## One reading -/

/-- A literal that is a text is no number, with minuses or without. -/
theorem literal_ne_number {literal literal' s digits : String} (h : literalValue literal = .text s)
    {minuses : List Bool} (h' : numberDigits? (literalValue literal') = some digits) :
    [Token.literal literal] ≠ minuses.map (.mark '-') ++ [.literal literal'] := by
  intro heq
  cases minuses with
  | nil =>
    cases heq
    rw [h] at h'
    cases h'
  | cons => cases heq

/-- **Tokens spell one value** at most. -/
theorem GivenValue.Spells.unique {v v' : GivenValue} {spelling : List Token} (h : v.Spells spelling)
    (h' : v'.Spells spelling) : v = v' := by
  generalize hspelling : spelling = spelling' at h'
  -- the first token tells a text, a truth value and a minus apart; a literal alone says itself what it is
  cases h with
  | @text literal s hs =>
    cases h' with
    | text hs' =>
      cases hspelling
      rw [hs] at hs'
      cases hs'
      rfl
    | truth => cases hspelling
    | number minuses hdigits => exact absurd hspelling (literal_ne_number hs hdigits)
  | truth b =>
    cases h' with
    | text => cases hspelling
    | truth b' => cases b <;> cases b' <;> first | rfl | simp at hspelling
    | number minuses => cases minuses <;> cases hspelling
  | @number literal digits minuses hdigits =>
    cases h' with
    | text hs' => exact absurd hspelling.symm (literal_ne_number hs' hdigits)
    | truth => cases minuses <;> cases hspelling
    | number minuses' hdigits' =>
      obtain ⟨hminuses, hliteral⟩ := List.append_inj' hspelling rfl
      cases hliteral
      rw [hdigits] at hdigits'
      cases hdigits'
      have hlength := congrArg List.length hminuses
      rw [List.length_map, List.length_map] at hlength
      rw [hlength]

theorem GivenValue.SpellsOption.unique {g g' : String × GivenValue} {p : List Token} (h : g.2.SpellsOption g.1 p)
    (h' : g'.2.SpellsOption g'.1 p) : g = g' := by
  obtain ⟨joined, spelling, rfl, hspells⟩ := h
  obtain ⟨joined', spelling', heq, hspells'⟩ := h'
  rw [List.cons.injEq, List.cons.injEq, Token.word.injEq] at heq
  obtain ⟨hname, -, rfl⟩ := heq
  exact Prod.ext hname (hspells.unique hspells')

/-- **A body gives one list of options** at most. -/
theorem AttributeBody.Gives.unique {body : AttributeBody} {given given' : List (String × GivenValue)}
    (h : body.Gives given) (h' : body.Gives given') : given = given' := by
  cases h with
  | bare =>
    cases h'
    rfl
  | list h =>
    cases h' with
    | list h' =>
      have hunique : Relator.LeftUnique fun (g : String × GivenValue) p => g.2.SpellsOption g.1 p :=
        fun _ _ _ hp hp' => hp.unique hp'
      exact List.left_unique_forall₂' hunique h h'

end FormWiring
