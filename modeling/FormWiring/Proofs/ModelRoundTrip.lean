import FormWiring.Proofs.Assembly
import FormWiring.Proofs.ModelSchema
import Mathlib.Data.List.Forall2

/-!
# Writing models and reading them

A model that is written out reads back as itself, and its records hold their own keys and no other. A record to be
read may hold more: what stands under a key that is not its own is ignored. Which keys are a field's own depends on
its rule, so a parameter of one rule is a foreign key to another.

Main statement: `Form.model_laws`.
-/

set_option autoImplicit false

namespace FormWiring

/-! ## Own keys -/

/-- **Own keys of a field** with a rule of the kind. -/
def Field.keys (kind : RuleKind) : List String :=
  "name" :: "rule" :: (kind.options ++ ["error_message_res", "error_message", "auto_dismiss"])

/-- **Own keys of an error callback.** -/
def ErrorCallback.keys : List String :=
  ["method", "arity"]

/-- **Own keys of a form.** -/
def Form.keys : List String :=
  ["name", "visibility", "fields", "validate_action", "clear_action", "on_success", "on_error"]

/-- The table of a field asks for what stands under its own keys, all of them and no other. -/
theorem Field.mem_keys_iff {kind : RuleKind} {key : String} :
    key ∈ Field.keys kind ↔ key = "rule" ∨ ∃ part ∈ Field.parts kind, part.key = key := by
  have hkeys : (Field.parts kind).map Part.key =
      "name" :: (kind.options ++ ["error_message_res", "error_message", "auto_dismiss"]) := by
    rw [Field.parts, List.map_cons, List.map_append, RuleKind.map_key_parts]
    rfl
  rw [← List.mem_map, hkeys, Field.keys, List.mem_cons, List.mem_cons, List.mem_cons]
  exact or_left_comm

theorem ErrorCallback.map_key_parts : ErrorCallback.parts.map Part.key = ErrorCallback.keys :=
  rfl

theorem Form.map_key_parts (Tag : RuleKind → Datum → Prop) : (Form.parts Tag).map Part.key = Form.keys :=
  rfl

/-- **Keys of a record**, in order. -/
def Datum.keys : Datum → List String
  | .record entries => entries.map Prod.fst
  | _ => []

/-! ## Written models -/

/-- **Written out**: the records of the form, of its fields and of its callback have all their own keys, and no
other. -/
structure Form.IsWrittenOut (form : Form) (d : Datum) : Prop where
  keys : d.keys = Form.keys
  fields : ∃ items, d.get? "fields" = some (.list items) ∧
    List.Forall₂ (fun (f : Field) item => item.keys = Field.keys f.kind) form.fields items
  onError : ∀ c, form.onError = some c → ∃ value, d.get? "on_error" = some value ∧
    value.keys = ErrorCallback.keys

/-- The parameters of a rule are written under the options of its kind. -/
theorem Rule.map_fst_toEntries (rule : Rule) : rule.toEntries.map Prod.fst = rule.kind.options := by
  cases rule <;> rfl

theorem Field.keys_toDatum (f : Field) : f.toDatum.keys = Field.keys f.kind := by
  simp [Field.toDatum, Datum.keys, Field.keys, Rule.map_fst_toEntries, Field.kind]

theorem Form.isWrittenOut_toDatum (form : Form) : form.IsWrittenOut form.toDatum where
  keys := rfl
  fields := by
    refine ⟨_, rfl, ?_⟩
    rw [List.forall₂_map_right_iff, List.forall₂_same]
    exact fun f _ => f.keys_toDatum
  onError := by
    intro c hc
    refine ⟨c.toDatum, ?_, rfl⟩
    rw [Form.toDatum, hc]
    rfl

/-! ## Reading what was written -/

theorem Datum.toInt64?_toInt (n : Int64) : (Datum.int n.toInt).toInt64? = some n := by
  have h : Int64.minValue.toInt ≤ n.toInt ∧ n.toInt ≤ Int64.maxValue.toInt :=
    ⟨n.minValue_le_toInt, n.toInt_le⟩
  rw [toInt64?, if_pos h, Int64.ofInt_toInt]

theorem Datum.toInt32?_toInt (n : Int32) : (Datum.int n.toInt).toInt32? = some n := by
  have h : Int32.minValue.toInt ≤ n.toInt ∧ n.toInt ≤ Int32.maxValue.toInt :=
    ⟨n.minValue_le_toInt, n.toInt_le⟩
  rw [toInt32?, if_pos h, Int32.ofInt_toInt]

theorem Visibility.ofName?_name (v : Visibility) : Visibility.ofName? v.name = some v := by
  cases v <;> rfl

theorem ErrorArity.ofName?_name (a : ErrorArity) : ErrorArity.ofName? a.name = some a := by
  cases a <;> rfl

/-- A rule is read from the options of its kind alone. -/
theorem Rule.ofParts?_congr {get get' : String → Option Datum} {kind : RuleKind}
    (h : ∀ key ∈ kind.options, get' key = get key) : Rule.ofParts? get' kind = Rule.ofParts? get kind := by
  cases kind <;> simp_all [RuleKind.options, Rule.ofParts?]

/-- A rule reads back from its parameters. -/
theorem Rule.ofParts?_toEntries (rule : Rule) :
    Rule.ofParts? (fun key => Datum.entry? key rule.toEntries) rule.kind = some rule := by
  cases rule <;>
    simp [Rule.ofParts?, Rule.toEntries, Rule.kind, Datum.entry?_cons, Datum.partOr, Datum.toText?,
      Datum.toBool?, Datum.toInt64?_toInt]

/-- A rule has no parameter under a key that every field has. -/
theorem RuleKind.not_mem_options {key : String}
    (h : key ∈ ["name", "rule", "error_message_res", "error_message", "auto_dismiss"]) (kind : RuleKind) :
    key ∉ kind.options := by
  revert key
  cases kind <;> decide

/-- Of a written field, a parameter of its rule is found among the parameters. -/
theorem Field.get?_toDatum_of_mem (f : Field) {key : String} (hkey : key ∈ f.kind.options) :
    f.toDatum.get? key = Datum.entry? key f.rule.toEntries := by
  have hname : key ≠ "name" := fun heq => RuleKind.not_mem_options (by simp [heq]) _ hkey
  have hrule : key ≠ "rule" := fun heq => RuleKind.not_mem_options (by simp [heq]) _ hkey
  have hfound : (f.rule.toEntries.lookup key).isSome = true := by
    rw [Field.kind, ← Rule.map_fst_toEntries] at hkey
    obtain ⟨entry, hentry, rfl⟩ := List.mem_map.1 hkey
    exact List.lookup_isSome_iff.2 ⟨entry, hentry, BEq.rfl⟩
  unfold Field.toDatum Datum.get?
  dsimp only
  rw [Datum.entry?_cons, if_neg hname, Datum.entry?_cons, if_neg hrule]
  exact List.lookup_append.trans (Option.or_of_isSome hfound)

/-- Anything else is found as if the rule had no parameters. -/
theorem Field.get?_toDatum_of_not_mem (f : Field) {key : String} (hkey : key ∉ f.kind.options) :
    f.toDatum.get? key = Datum.entry? key
      [("name", .text f.name), ("rule", .text f.kind.attributeName),
        ("error_message_res", .int f.messageResource.toInt), ("error_message", .text f.messageText),
        ("auto_dismiss", .bool f.autoDismiss)] := by
  have hnone : f.rule.toEntries.lookup key = none := by
    rw [Field.kind, ← Rule.map_fst_toEntries] at hkey
    exact List.lookup_eq_none_iff.2 fun entry hentry =>
      bne_iff_ne.2 fun heq => hkey (heq ▸ List.mem_map_of_mem hentry)
  have hpast (rest : List (String × Datum)) :
      Datum.entry? key (f.rule.toEntries ++ rest) = Datum.entry? key rest := by
    unfold Datum.entry?
    rw [List.lookup_append, hnone, Option.none_or]
  unfold Field.toDatum Datum.get?
  simp only [Datum.entry?_cons, hpast]

/-- A field reads back from its record. -/
theorem Field.ofDatum?_toDatum (f : Field) : Field.ofDatum? .json f.toDatum = some f := by
  have htag : RuleKind.ofTag? .json (.text f.kind.attributeName) = some f.kind :=
    RuleKind.ofAttributeName?_eq_some_iff.2 rfl
  have hrule : Rule.ofParts? (fun key => f.toDatum.get? key) f.kind = some f.rule :=
    (Rule.ofParts?_congr fun _ hkey => f.get?_toDatum_of_mem hkey).trans f.rule.ofParts?_toEntries
  have hcommon {key : String}
      (hkey : key ∈ ["name", "rule", "error_message_res", "error_message", "auto_dismiss"]) :=
    f.get?_toDatum_of_not_mem (RuleKind.not_mem_options hkey f.kind)
  have hread : Field.ofDatum? .json f.toDatum = ((f.toDatum.get? "rule").bind (RuleKind.ofTag? .json)).bind
      (Field.ofParts? fun key => f.toDatum.get? key) := Field.ofDatum?_record .json _
  rw [hread, hcommon (by decide), Datum.entry?_cons, if_neg (by decide), Datum.entry?_cons, if_pos rfl,
    Option.bind_some, htag, Option.bind_some, Field.ofParts?, hrule]
  simp [hcommon, Datum.entry?_cons, Datum.partOr, Datum.toText?, Datum.toBool?, Datum.toInt32?_toInt]

theorem ErrorCallback.ofDatum?_toDatum (c : ErrorCallback) :
    ErrorCallback.ofDatum? .json c.toDatum = some c := by
  simp [ErrorCallback.toDatum, ErrorCallback.ofDatum?_record, ErrorCallback.ofParts?, Datum.entry?_cons,
    Datum.partOr, Datum.toText?, Datum.toChoice?, ErrorArity.ofName?_name]

theorem Datum.toOptional?_ofText? (text : Option String) :
    (Datum.ofText? text).toOptional? .json Datum.toText? = some text := by
  cases text <;> rfl

theorem ErrorCallback.toOptional?_toDatum (c : ErrorCallback) :
    c.toDatum.toOptional? .json (ErrorCallback.ofDatum? .json) = some (some c) :=
  congrArg (Option.map some) c.ofDatum?_toDatum

/-- A form reads back from its record. -/
theorem Form.ofDatum?_toDatum (form : Form) : Form.ofDatum? .json form.toDatum = some form := by
  obtain ⟨host, visibility, fields, validateAction, clearAction, onSuccess, onError⟩ := form
  have hfields := mapM_map_of_inverse Field.ofDatum?_toDatum fields
  have hnull : Datum.null.toOptional? .json (ErrorCallback.ofDatum? .json) = some none := rfl
  -- a missing callback is written as `null`, which reads as a missing one
  cases onError <;>
    simp [Form.toDatum, Form.ofDatum?_record, Form.ofParts?, Datum.entry?_cons, Datum.partOr,
      Datum.toText?, Datum.toChoice?, Visibility.ofName?_name, Datum.toItems?, hfields,
      Datum.toOptional?_ofText?, hnull, ErrorCallback.toOptional?_toDatum]

/-! ## Foreign keys -/

/-- **Entries put in**: the second list has the entries of the first in order, each value as like the old one as
`Like` asks, and between them entries under foreign keys. -/
inductive Padded (own : List String) (Like : String → Datum → Datum → Prop) :
    List (String × Datum) → List (String × Datum) → Prop where
  | nil : Padded own Like [] []
  | keep {key : String} {d d' : Datum} {entries entries' : List (String × Datum)} (hlike : Like key d d')
      (hrest : Padded own Like entries entries') : Padded own Like ((key, d) :: entries) ((key, d') :: entries')
  | add {key : String} {d : Datum} {entries entries' : List (String × Datum)} (hforeign : key ∉ own)
      (hrest : Padded own Like entries entries') : Padded own Like entries ((key, d) :: entries')

/-- Under an own key stands what stood there. -/
theorem Padded.rel_entry? {own : List String} {Like : String → Datum → Datum → Prop}
    {entries entries' : List (String × Datum)} (h : Padded own Like entries entries') {key : String}
    (hkey : key ∈ own) : Option.Rel (Like key) (Datum.entry? key entries) (Datum.entry? key entries') := by
  -- on how the entries were put in; a lookup of an own key passes every foreign one
  induction h with
  | nil => exact .none
  | @keep k d d' _ _ hlike _ ih =>
    rw [Datum.entry?_cons, Datum.entry?_cons]
    by_cases heq : key = k
    · rw [if_pos heq, if_pos heq]
      exact .some (heq ▸ hlike)
    · rw [if_neg heq, if_neg heq]
      exact ih
  | @add k _ _ _ hforeign _ ih =>
    have hne : key ≠ k := fun heq => hforeign (heq ▸ hkey)
    rw [Datum.entry?_cons, if_neg hne]
    exact ih

/-- **A field with entries put in** under keys that are foreign to its rule. -/
inductive Field.Padded : Datum → Datum → Prop where
  | same (d : Datum) : Field.Padded d d
  | record {entries entries' : List (String × Datum)} {kind : RuleKind}
      (hkind : (Datum.entry? "rule" entries).bind (RuleKind.ofTag? .json) = some kind)
      (h : FormWiring.Padded (Field.keys kind) (fun _ => Eq) entries entries') :
      Field.Padded (.record entries) (.record entries')

/-- **A value of a model with entries put in** the records it holds. -/
inductive Form.PaddedPart : String → Datum → Datum → Prop where
  | same (key : String) (d : Datum) : Form.PaddedPart key d d
  | fields {items items' : List Datum} (h : List.Forall₂ Field.Padded items items') :
      Form.PaddedPart "fields" (.list items) (.list items')
  | onError {entries entries' : List (String × Datum)}
      (h : FormWiring.Padded ErrorCallback.keys (fun _ => Eq) entries entries') :
      Form.PaddedPart "on_error" (.record entries) (.record entries')

/-- **A model with entries put in** under foreign keys, in its own record and in those it holds. -/
inductive Form.Padded : Datum → Datum → Prop where
  | record {entries entries' : List (String × Datum)}
      (h : FormWiring.Padded Form.keys Form.PaddedPart entries entries') :
      Form.Padded (.record entries) (.record entries')

section

variable {own : List String} {Like : String → Datum → Datum → Prop} {entries entries' : List (String × Datum)}
  (key : String)

/-- A value that is only like itself stays. -/
theorem Padded.entry?_eq (h : Padded own Like entries entries') (hkey : key ∈ own)
    (hlike : ∀ d d', Like key d d' → d' = d) : Datum.entry? key entries' = Datum.entry? key entries := by
  have hrel := h.rel_entry? hkey
  generalize Datum.entry? key entries = part, Datum.entry? key entries' = part' at hrel ⊢
  cases hrel with
  | some hd => rw [hlike _ _ hd]
  | none => rfl

/-- A part whose reader does not tell like values apart reads the same. -/
theorem Padded.partOr_eq {α : Type} (fallback : α) {decode : Datum → Option α}
    (h : Padded own Like entries entries') (hkey : key ∈ own)
    (hlike : ∀ d d', Like key d d' → decode d' = decode d) :
    Datum.partOr (Datum.entry? key entries') fallback decode =
      Datum.partOr (Datum.entry? key entries) fallback decode := by
  have hrel := h.rel_entry? hkey
  generalize Datum.entry? key entries = part, Datum.entry? key entries' = part' at hrel ⊢
  cases hrel with
  | some hd => exact hlike _ _ hd
  | none => rfl

end

/-- A field is read from its own keys alone. -/
theorem Field.ofParts?_congr {get get' : String → Option Datum} {kind : RuleKind}
    (h : ∀ key ∈ Field.keys kind, get' key = get key) : Field.ofParts? get' kind = Field.ofParts? get kind := by
  simp only [Field.keys, List.forall_mem_cons, List.forall_mem_append, List.not_mem_nil, false_implies,
    implies_true, and_true] at h
  obtain ⟨hname, -, hrule, hresource, htext, hdismiss⟩ := h
  rw [Field.ofParts?, Field.ofParts?, hname, Rule.ofParts?_congr hrule, hresource, htext, hdismiss]

/-- What is put in under foreign keys does not change the field. -/
theorem Field.ofDatum?_of_padded {d d' : Datum} (h : Field.Padded d d') :
    Field.ofDatum? .json d' = Field.ofDatum? .json d := by
  cases h with
  | same => rfl
  | @record entries entries' kind hkind h =>
    -- the tag is an own key of every kind, so the padded record is of the same kind
    have htag : Datum.entry? "rule" entries' = Datum.entry? "rule" entries :=
      h.entry?_eq "rule" (List.mem_cons_of_mem _ List.mem_cons_self) fun _ _ => Eq.symm
    rw [Field.ofDatum?_record, Field.ofDatum?_record, htag, hkind]
    exact Field.ofParts?_congr fun key hkey => h.entry?_eq _ hkey fun _ _ => Eq.symm

theorem ErrorCallback.ofDatum?_of_padded {entries entries' : List (String × Datum)}
    (h : FormWiring.Padded ErrorCallback.keys (fun _ => Eq) entries entries') :
    ErrorCallback.ofDatum? .json (.record entries') = ErrorCallback.ofDatum? .json (.record entries) := by
  have hmethod := h.entry?_eq "method" (by decide) fun _ _ => Eq.symm
  have harity := h.entry?_eq "arity" (by decide) fun _ _ => Eq.symm
  rw [ErrorCallback.ofDatum?_record, ErrorCallback.ofDatum?_record, ErrorCallback.ofParts?,
    ErrorCallback.ofParts?, hmethod, harity]

theorem mapM_eq_of_forall₂ {α β : Type} {read : α → Option β} {R : α → α → Prop}
    (hread : ∀ a a', R a a' → read a' = read a) {l l' : List α} (h : List.Forall₂ R l l') :
    l'.mapM read = l.mapM read := by
  induction h with
  | nil => rfl
  | cons ha _ ih => rw [List.mapM_cons, List.mapM_cons, hread _ _ ha, ih]

namespace Form.PaddedPart

variable {key : String} {d d' : Datum}

theorem eq_of_ne (h : PaddedPart key d d') (hfields : key ≠ "fields") (honError : key ≠ "on_error") : d' = d := by
  cases h with
  | same => rfl
  | fields => exact absurd rfl hfields
  | onError => exact absurd rfl honError

theorem fields_eq (h : PaddedPart key d d') (hkey : key = "fields") :
    (d'.toItems?.bind fun items => items.mapM (Field.ofDatum? .json)) =
      d.toItems?.bind fun items => items.mapM (Field.ofDatum? .json) := by
  cases h with
  | same => rfl
  | fields h => exact mapM_eq_of_forall₂ (fun _ _ hpadded => Field.ofDatum?_of_padded hpadded) h
  | onError => exact absurd hkey (by decide)

theorem onError_eq (h : PaddedPart key d d') (hkey : key = "on_error") :
    d'.toOptional? .json (ErrorCallback.ofDatum? .json) = d.toOptional? .json (ErrorCallback.ofDatum? .json) := by
  cases h with
  | same => rfl
  | fields => exact absurd hkey (by decide)
  | onError h => exact congrArg (Option.map some) (ErrorCallback.ofDatum?_of_padded h)

end Form.PaddedPart

/-- What is put in under foreign keys does not change the form. -/
theorem Form.ofDatum?_of_padded {d d' : Datum} (h : Form.Padded d d') :
    Form.ofDatum? .json d' = Form.ofDatum? .json d := by
  obtain @⟨entries, entries', h⟩ := h
  have same (key : String) (hkey : key ∈ Form.keys) (hfields : key ≠ "fields") (honError : key ≠ "on_error") :
      Datum.entry? key entries' = Datum.entry? key entries :=
    h.entry?_eq _ hkey fun _ _ hlike => hlike.eq_of_ne hfields honError
  have fields := h.partOr_eq "fields" ([] : List Field) (by decide)
    fun _ _ hlike => hlike.fields_eq rfl
  have onError := h.partOr_eq "on_error" (none : Option ErrorCallback) (by decide)
    fun _ _ hlike => hlike.onError_eq rfl
  rw [Form.ofDatum?_record, Form.ofDatum?_record, Form.ofParts?, Form.ofParts?,
    same "name" (by decide) (by decide) (by decide),
    same "visibility" (by decide) (by decide) (by decide), fields,
    same "validate_action" (by decide) (by decide) (by decide),
    same "clear_action" (by decide) (by decide) (by decide),
    same "on_success" (by decide) (by decide) (by decide), onError]

/-! ## Reading and writing -/

/-- **Laws of the model format.** A form reads back from what it writes, and so does a form that was read; it writes out
all of its keys. What stands under a foreign key does not change what is read. Of the plain data, those are models that
have each mandatory part and no part of a wrong sort, where a rule is tagged by its name or its number. -/
theorem Form.model_laws :
    (∀ form : Form, Form.ofDatum? .json form.toDatum = some form) ∧
    (∀ (d : Datum) (form : Form), Form.ofDatum? .json d = some form →
      form.IsWrittenOut form.toDatum ∧ Form.ofDatum? .json form.toDatum = some form) ∧
    (∀ d d' : Datum, Form.Padded d d' → Form.ofDatum? .json d' = Form.ofDatum? .json d) ∧
    (∀ d : Datum, Form.IsPlain d →
      ((Form.ofDatum? .json d).isSome = true ↔ Form.IsWritten RuleKind.IsTaggedBy d)) :=
  ⟨Form.ofDatum?_toDatum, fun _ form _ => ⟨form.isWrittenOut_toDatum, form.ofDatum?_toDatum⟩,
    fun _ _ => Form.ofDatum?_of_padded, fun _ => Form.isSome_ofDatum?_iff⟩

/-- A model with one field and no more than it has to say. -/
def sparseModel : Datum :=
  .record [("name", .text "Login"), ("on_success", .text "on_valid"),
    ("fields", .list [.record [("name", .text "mail"), ("rule", .text "email")]])]

/-- The same model with a key nobody knows and, in the field, a bound that only other rules have. -/
def crowdedModel : Datum :=
  .record [("version", .int 2), ("name", .text "Login"), ("on_success", .text "on_valid"),
    ("fields", .list [.record [("name", .text "mail"), ("min", .text "low"), ("rule", .text "email")]])]

theorem sparseModel_padded : Form.Padded sparseModel crowdedModel := by
  refine .record (.add (by decide) (.keep (.same ..) (.keep (.same ..) (.keep (.fields ?_) .nil))))
  refine .cons (.record rfl ?_) .nil
  exact .keep rfl (.add (by decide) (.keep rfl .nil))

/-- The form that both models say. -/
def sparseForm : Form :=
  { host := "Login", fields := [{ name := "mail", rule := .email true }], onSuccess := "on_valid" }

theorem model_laws_of_sparseModel :
    Form.ofDatum? .json crowdedModel = Form.ofDatum? .json sparseModel ∧
    Form.IsWritten RuleKind.IsTaggedBy crowdedModel ∧
    sparseForm.IsWrittenOut sparseForm.toDatum ∧
    Form.ofDatum? .json sparseForm.toDatum = some sparseForm := by
  have hplain : Form.IsPlain crowdedModel := by decide
  obtain ⟨-, hreread, hpadded, hwritten⟩ := Form.model_laws
  exact ⟨hpadded _ _ sparseModel_padded, (hwritten _ hplain).1 rfl, hreread sparseModel _ rfl⟩

/-- A model whose rule is given by the number of its kind. -/
def numberedModel : Datum :=
  .record [("name", .text "Form"), ("on_success", .text "ok"),
    ("fields", .list [.record [("name", .text "a"), ("rule", .int 1)]])]

/-- The numbered model is plain and reads, although no kind has the name it gives. -/
theorem numberedModel_reads :
    Form.IsPlain numberedModel ∧ (Form.ofDatum? .json numberedModel).isSome = true ∧
      ¬ Form.IsWritten RuleKind.IsNamedBy numberedModel := by
  refine ⟨by decide, rfl, ?_⟩
  rintro ⟨entries, heq, hparts⟩
  cases heq
  obtain ⟨items, hitems, hfields⟩ := hparts (Form.parts RuleKind.IsNamedBy)[2] (by simp [Form.parts])
  cases hitems
  obtain ⟨entries, tag, kind, hentries, htag, hname, -⟩ := hfields _ List.mem_cons_self
  cases hentries
  cases htag
  cases hname

end FormWiring
