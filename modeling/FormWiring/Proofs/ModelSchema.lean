import FormWiring.Form.Data

/-!
# Which data are models

Reading a model is a row of partial readers. Here it is set against a table: a record has parts, a part has a
key, may have to be there, and says what may stand under its key. A record reads exactly when each of its
parts is in order, so the table of a rule kind is all there is to know about its parameters.

A structure may also be written as a list of its parts, and a choice as a record with one key. `Form.IsPlain`
holds of the data that do neither; of these, `Form.isSome_ofDatum?_iff` says which are models.
-/

set_option autoImplicit false

namespace FormWiring

/-! ## Sorts of values -/

namespace Datum

/-- **A text.** -/
def IsText (d : Datum) : Prop :=
  ∃ s, d = .text s

/-- **A truth value.** -/
def IsTruth (d : Datum) : Prop :=
  ∃ b, d = .bool b

/-- **An integer of a range**, its ends included. -/
def IsInteger (low high : Int) (d : Datum) : Prop :=
  ∃ n, d = .int n ∧ low ≤ n ∧ n ≤ high

/-- **Neither a list nor a record.** -/
def IsScalar : Datum → Prop
  | .list _ | .record _ => False
  | _ => True

instance (d : Datum) : Decidable d.IsScalar :=
  match d with
  | .list _ | .record _ => isFalse id
  | .null | .bool _ | .int _ | .real _ | .text _ => isTrue trivial

theorem entry?_cons (key k : String) (d : Datum) (rest : List (String × Datum)) :
    entry? key ((k, d) :: rest) = if key = k then some d else entry? key rest := by
  unfold entry?
  rw [List.lookup_cons]
  by_cases h : key = k
  · rw [if_pos h, beq_iff_eq.2 h]
  · rw [if_neg h, beq_false_of_ne h]

theorem mem_of_entry?_eq_some {key : String} {entries : List (String × Datum)} {d : Datum}
    (h : entry? key entries = some d) : (key, d) ∈ entries := by
  obtain ⟨before, after, rfl, -⟩ := List.lookup_eq_some_iff.1 h
  simp

theorem isSome_toText?_iff (d : Datum) : d.toText?.isSome = true ↔ d.IsText := by
  cases d <;> simp [toText?, IsText]

theorem isSome_toBool?_iff (d : Datum) : d.toBool?.isSome = true ↔ d.IsTruth := by
  cases d <;> simp [toBool?, IsTruth]

theorem isSome_toInt64?_iff (d : Datum) :
    d.toInt64?.isSome = true ↔ d.IsInteger Int64.minValue.toInt Int64.maxValue.toInt := by
  cases d <;> simp [toInt64?, IsInteger]

theorem isSome_toInt32?_iff (d : Datum) :
    d.toInt32?.isSome = true ↔ d.IsInteger Int32.minValue.toInt Int32.maxValue.toInt := by
  cases d <;> simp [toInt32?, IsInteger]

end Datum

/-! ## Parts of a record -/

/-- **Part of a record**: its key, whether it has to be there, and what may stand there. -/
structure Part where
  key : String
  isMandatory : Bool
  Fits : Datum → Prop

namespace Part

/-- **Part that has to be there.** -/
def mandatory (key : String) (Fits : Datum → Prop) : Part :=
  ⟨key, true, Fits⟩

/-- **Part with a default.** -/
def optional (key : String) (Fits : Datum → Prop) : Part :=
  ⟨key, false, Fits⟩

/-- **A part in order**: what is there fits, and nothing is missing that has to be there. -/
def InOrder (part : Part) (get : String → Option Datum) : Prop :=
  match get part.key with
  | some value => part.Fits value
  | none => part.isMandatory = false

variable (get : String → Option Datum) (key : String) {Fits : Datum → Prop} {α : Type}
  {decode : Datum → Option α}

/-- A reader that insists on the part succeeds when the mandatory part is in order. -/
theorem inOrder_mandatory (h : ∀ d, get key = some d → ((decode d).isSome = true ↔ Fits d)) :
    (mandatory key Fits).InOrder get ↔ ((get key).bind decode).isSome = true := by
  unfold InOrder mandatory
  cases hget : get key with
  | none => simp
  | some d => simpa using (h d hget).symm

/-- A reader with a default succeeds when the optional part is in order. -/
theorem inOrder_optional (fallback : α)
    (h : ∀ d, get key = some d → ((decode d).isSome = true ↔ Fits d)) :
    (optional key Fits).InOrder get ↔ (Datum.partOr (get key) fallback decode).isSome = true := by
  unfold InOrder optional Datum.partOr
  cases hget : get key with
  | none => simp
  | some d => simpa using (h d hget).symm

end Part

/-- A row of readers succeeds when its first one does and the rest does, whatever was read. -/
theorem isSome_bind_iff {α β : Type} {x : Option α} {f : α → Option β} {P : Prop}
    (h : ∀ a, x = some a → ((f a).isSome = true ↔ P)) :
    (x >>= f).isSome = true ↔ x.isSome = true ∧ P := by
  cases x with
  | none => simp
  | some a => simpa using h a rfl

theorem isSome_pure_two {α β γ : Type} {x : Option α} {y : Option β} {c : α → β → γ} :
    (do pure (c (← x) (← y))).isSome = true ↔ x.isSome = true ∧ y.isSome = true := by
  cases x <;> cases y <;> simp

theorem isSome_pure_three {α β γ δ : Type} {x : Option α} {y : Option β} {z : Option γ}
    {c : α → β → γ → δ} :
    (do pure (c (← x) (← y) (← z))).isSome = true ↔
      x.isSome = true ∧ y.isSome = true ∧ z.isSome = true := by
  cases x <;> cases y <;> cases z <;> simp

theorem isSome_bind_pure {α β : Type} {x : Option α} {f : α → β} :
    (x >>= fun a => pure (f a)).isSome = true ↔ x.isSome = true := by
  cases x <;> simp

/-! ## Rules -/

/-- **Tag of a kind**: its declared name. -/
def RuleKind.IsNamedBy (kind : RuleKind) (tag : Datum) : Prop :=
  tag = .text kind.attributeName

/-- **Tag of a kind**: its declared name or its number. -/
def RuleKind.IsTaggedBy (kind : RuleKind) (tag : Datum) : Prop :=
  kind.IsNamedBy tag ∨ tag = .int kind.index

/-- **Parts of a kind**: its parameters. -/
def RuleKind.parts (kind : RuleKind) : List Part :=
  let flag := Part.optional "required" Datum.IsTruth
  let text := fun key => Part.mandatory key Datum.IsText
  let bound := fun key => Part.optional key (Datum.IsInteger Int64.minValue.toInt Int64.maxValue.toInt)
  match kind with
  | .required | .confirmEmail | .confirmPassword | .betweenStart | .betweenLimit => []
  | .email | .onlyNumber | .cpf | .cnpj | .isbn | .creditCard | .ipv4 | .ipv6 | .url => [flag]
  | .pattern => [text "pattern", flag]
  | .length => [bound "min", bound "max", flag]
  | .password => [bound "min", .optional "pattern" Datum.IsText]
  | .numericLimit => [text "min", text "max", flag]
  | .pastDate | .futureDate => [text "date_format", text "limit_date", flag]

/-- The parameters of a kind are its own options. -/
theorem RuleKind.map_key_parts (kind : RuleKind) : kind.parts.map Part.key = kind.options := by
  cases kind <;> rfl

theorem RuleKind.getElem?_all_eq_some_iff {n : Nat} {kind : RuleKind} :
    RuleKind.all[n]? = some kind ↔ n = kind.index := by
  constructor
  · intro h
    obtain ⟨hn, rfl⟩ := List.getElem?_eq_some_iff.1 h
    exact (List.Nodup.idxOf_getElem (by decide) n hn).symm
  · rintro rfl
    cases kind <;> rfl

/-- In JSON a kind is read from its name and from its number. -/
theorem RuleKind.ofTag?_eq_some_iff {tag : Datum} {kind : RuleKind} :
    RuleKind.ofTag? .json tag = some kind ↔ kind.IsTaggedBy tag := by
  cases tag with
  | text name =>
    simp only [RuleKind.ofTag?, RuleKind.ofAttributeName?_eq_some_iff, RuleKind.IsTaggedBy,
      RuleKind.IsNamedBy, Datum.text.injEq, reduceCtorEq, or_false]
    exact eq_comm
  | int n =>
    simp only [RuleKind.ofTag?, RuleKind.IsTaggedBy, RuleKind.IsNamedBy, true_and, reduceCtorEq,
      false_or, Datum.int.injEq]
    split
    · rw [RuleKind.getElem?_all_eq_some_iff]
      omega
    · simp only [reduceCtorEq, false_iff]
      omega
  | _ => simp [RuleKind.ofTag?, RuleKind.IsTaggedBy, RuleKind.IsNamedBy]

/-- A rule of a kind is read when every part of the kind is in order. -/
theorem Rule.isSome_ofParts?_iff (get : String → Option Datum) (kind : RuleKind) :
    (Rule.ofParts? get kind).isSome = true ↔ ∀ part ∈ kind.parts, part.InOrder get := by
  have text (key : String) :=
    Part.inOrder_mandatory get key fun d _ => Datum.isSome_toText?_iff d
  have flag := Part.inOrder_optional get "required" true
    fun d _ => Datum.isSome_toBool?_iff d
  have bound (key : String) := Part.inOrder_optional get key (0 : Int64)
    fun d _ => Datum.isSome_toInt64?_iff d
  have regex := Part.inOrder_optional get "pattern" ""
    fun d _ => Datum.isSome_toText?_iff d
  cases kind <;>
    simp only [Rule.ofParts?, RuleKind.parts, List.forall_mem_cons, List.not_mem_nil, false_implies,
      implies_true, and_true, text, flag, bound, regex, Option.isSome_map, Option.isSome_some,
      isSome_pure_two, isSome_pure_three]

/-! ## Fields -/

/-- **Parts of a field** with a rule of the kind, its tag apart. -/
def Field.parts (kind : RuleKind) : List Part :=
  .mandatory "name" Datum.IsText :: (kind.parts ++
    [.optional "error_message_res" (Datum.IsInteger Int32.minValue.toInt Int32.maxValue.toInt),
      .optional "error_message" Datum.IsText, .optional "auto_dismiss" Datum.IsTruth])

/-- **Field as it may be written**: a record with the tag of a kind, as the tags are taken, and every part of
that kind in order. -/
def Field.IsWritten (Tag : RuleKind → Datum → Prop) (d : Datum) : Prop :=
  ∃ entries tag kind, d = .record entries ∧ Datum.entry? "rule" entries = some tag ∧ Tag kind tag ∧
    ∀ part ∈ Field.parts kind, part.InOrder fun key => Datum.entry? key entries

/-- **Readers of a field** with a rule of the kind. -/
def Field.ofParts? (get : String → Option Datum) (kind : RuleKind) : Option Field := do
  let name ← (get "name").bind Datum.toText?
  let rule ← Rule.ofParts? get kind
  let resource ← Datum.partOr (get "error_message_res") unsetResource Datum.toInt32?
  let text ← Datum.partOr (get "error_message") "" Datum.toText?
  let autoDismiss ← Datum.partOr (get "auto_dismiss") true Datum.toBool?
  pure ⟨name, rule, resource, text, autoDismiss⟩

/-- A field is read by its tag first, although its name is looked at before. -/
theorem Field.ofDatum?_record (dialect : Dialect) (entries : List (String × Datum)) :
    Field.ofDatum? dialect (.record entries) =
      ((Datum.entry? "rule" entries).bind (RuleKind.ofTag? dialect)).bind
        (Field.ofParts? fun key => Datum.entry? key entries) := by
  simp only [Field.ofDatum?, Datum.toEntries?, Option.bind_eq_bind, Option.bind_some]
  cases (Datum.entry? "rule" entries).bind (RuleKind.ofTag? dialect) with
  | none => simp
  | some kind => rfl

theorem Field.isSome_ofParts?_iff (get : String → Option Datum) (kind : RuleKind) :
    (Field.ofParts? get kind).isSome = true ↔ ∀ part ∈ Field.parts kind, part.InOrder get := by
  have name := Part.inOrder_mandatory get "name" fun d _ => Datum.isSome_toText?_iff d
  have resource := Part.inOrder_optional get "error_message_res" unsetResource fun d _ => Datum.isSome_toInt32?_iff d
  have text := Part.inOrder_optional get "error_message" ""
    fun d _ => Datum.isSome_toText?_iff d
  have autoDismiss := Part.inOrder_optional get "auto_dismiss" true
    fun d _ => Datum.isSome_toBool?_iff d
  simp only [Field.parts, List.forall_mem_cons, List.forall_mem_append, List.not_mem_nil, false_implies,
    implies_true, and_true, name, resource, text, autoDismiss, ← Rule.isSome_ofParts?_iff]
  exact isSome_bind_iff fun _ _ => isSome_bind_iff fun _ _ => isSome_bind_iff fun _ _ =>
    isSome_bind_iff fun _ _ => isSome_bind_pure

/-- A field reads exactly when it is written as a field may be. -/
theorem Field.isSome_ofDatum?_iff (d : Datum) :
    (Field.ofDatum? .json d).isSome = true ↔ Field.IsWritten RuleKind.IsTaggedBy d := by
  cases d with
  | record entries =>
    simp only [Field.ofDatum?_record, Option.isSome_bind, Option.any_eq_true, Option.bind_eq_some_iff,
      RuleKind.ofTag?_eq_some_iff, Field.isSome_ofParts?_iff, Field.IsWritten, Datum.record.injEq]
    constructor
    · rintro ⟨kind, ⟨tag, hget, htag⟩, hparts⟩
      exact ⟨entries, tag, kind, rfl, hget, htag, hparts⟩
    · rintro ⟨_, tag, kind, rfl, hget, htag, hparts⟩
      exact ⟨kind, ⟨tag, hget, htag⟩, hparts⟩
  | _ => simp [Field.ofDatum?, Datum.toEntries?, Field.IsWritten]

/-! ## Callbacks -/

/-- **Parts of an error callback.** -/
def ErrorCallback.parts : List Part :=
  [.mandatory "method" Datum.IsText, .optional "arity" fun d => ∃ a : ErrorArity, d = .text a.name]

/-- **Error callback as it may be written.** -/
def ErrorCallback.IsWritten (d : Datum) : Prop :=
  ∃ entries, d = .record entries ∧
    ∀ part ∈ ErrorCallback.parts, part.InOrder fun key => Datum.entry? key entries

theorem ErrorArity.isSome_ofName?_iff (name : String) :
    (ErrorArity.ofName? name).isSome = true ↔ ∃ a : ErrorArity, name = a.name := by
  constructor
  · unfold ErrorArity.ofName?
    split
    · exact fun _ => ⟨.bare, rfl⟩
    · exact fun _ => ⟨.withErrors, rfl⟩
    · simp
  · rintro ⟨a, rfl⟩
    cases a <;> rfl

theorem Visibility.isSome_ofName?_iff (name : String) :
    (Visibility.ofName? name).isSome = true ↔ ∃ v : Visibility, name = v.name := by
  constructor
  · unfold Visibility.ofName?
    split
    · exact fun _ => ⟨.inherited, rfl⟩
    · exact fun _ => ⟨.crate, rfl⟩
    · exact fun _ => ⟨.everywhere, rfl⟩
    · simp
  · rintro ⟨v, rfl⟩
    cases v <;> rfl

/-- A choice that is no record reads exactly when it is one of the names. -/
theorem Datum.isSome_toChoice?_bind_iff {α : Type} {ofName? : String → Option α} {name : α → String}
    (hname : ∀ s, (ofName? s).isSome = true ↔ ∃ a, s = name a) {d : Datum} (hd : d.IsScalar) :
    ((d.toChoice? .json).bind ofName?).isSome = true ↔ ∃ a, d = .text (name a) := by
  cases d with
  | text s => simp [Datum.toChoice?, hname]
  | record entries => exact absurd hd id
  | _ => simp [Datum.toChoice?]

/-- **Readers of an error callback.** -/
def ErrorCallback.ofParts? (get : String → Option Datum) : Option ErrorCallback := do
  let method ← (get "method").bind Datum.toText?
  let arity ← Datum.partOr (get "arity") .bare fun d => (d.toChoice? .json).bind ErrorArity.ofName?
  pure ⟨method, arity⟩

theorem ErrorCallback.ofDatum?_record (entries : List (String × Datum)) :
    ErrorCallback.ofDatum? .json (.record entries) =
      ErrorCallback.ofParts? fun key => Datum.entry? key entries :=
  rfl

/-- A callback without nested values reads exactly when it is written as a callback may be. -/
theorem ErrorCallback.isSome_ofDatum?_iff {entries : List (String × Datum)}
    (hflat : ∀ entry ∈ entries, entry.2.IsScalar) :
    (ErrorCallback.ofDatum? .json (.record entries)).isSome = true ↔
      ErrorCallback.IsWritten (.record entries) := by
  let get := fun key => Datum.entry? key entries
  have method := Part.inOrder_mandatory get "method" fun d _ => Datum.isSome_toText?_iff d
  have arity := Part.inOrder_optional get "arity" ErrorArity.bare
    fun d hd => Datum.isSome_toChoice?_bind_iff (d := d) ErrorArity.isSome_ofName?_iff
      (hflat _ (Datum.mem_of_entry?_eq_some hd))
  simp only [IsWritten, Datum.record.injEq, exists_eq_left']
  change _ ↔ ∀ part ∈ ErrorCallback.parts, part.InOrder get
  simp only [ErrorCallback.parts, List.forall_mem_cons, List.not_mem_nil, false_implies, implies_true,
    and_true, method, arity]
  exact isSome_pure_two

/-! ## Forms -/

/-- **Parts of a form**, whose fields are tagged as given. -/
def Form.parts (Tag : RuleKind → Datum → Prop) : List Part :=
  let member := fun key => Part.optional key fun d => d = .null ∨ d.IsText
  [.mandatory "name" Datum.IsText, .optional "visibility" fun d => ∃ v : Visibility, d = .text v.name,
    .optional "fields" fun d => ∃ items, d = .list items ∧ ∀ item ∈ items, Field.IsWritten Tag item,
    member "validate_action", member "clear_action", .mandatory "on_success" Datum.IsText,
    .optional "on_error" fun d => d = .null ∨ ErrorCallback.IsWritten d]

/-- **Form as it may be written.** -/
def Form.IsWritten (Tag : RuleKind → Datum → Prop) (d : Datum) : Prop :=
  ∃ entries, d = .record entries ∧ ∀ part ∈ Form.parts Tag, part.InOrder fun key => Datum.entry? key entries

/-- **Neither a list nor a record, or a record of such values.** -/
def Datum.IsFlat : Datum → Prop
  | .record entries => ∀ entry ∈ entries, entry.2.IsScalar
  | d => d.IsScalar

instance (d : Datum) : Decidable d.IsFlat :=
  match d with
  | .record entries => inferInstanceAs (Decidable (∀ entry ∈ entries, entry.2.IsScalar))
  | .list _ => isFalse id
  | .null | .bool _ | .int _ | .real _ | .text _ => isTrue trivial

/-- **Plain value under a key** of a model: only `fields` has a list, and only `on_error` has a record. -/
def Form.IsPlainPart (key : String) : Datum → Prop
  | .list items => key = "fields" ∧ ∀ item ∈ items, item.IsFlat
  | .record entries => key = "on_error" ∧ ∀ entry ∈ entries, entry.2.IsScalar
  | _ => True

instance (key : String) (d : Datum) : Decidable (Form.IsPlainPart key d) :=
  match d with
  | .list items => inferInstanceAs (Decidable (key = "fields" ∧ ∀ item ∈ items, item.IsFlat))
  | .record entries => inferInstanceAs (Decidable (key = "on_error" ∧ ∀ entry ∈ entries, entry.2.IsScalar))
  | .null | .bool _ | .int _ | .real _ | .text _ => isTrue trivial

/-- **Plain data**: lists only as the value of `fields`, and records only as the model, its fields and
`on_error`. -/
def Form.IsPlain : Datum → Prop
  | .record entries => ∀ entry ∈ entries, Form.IsPlainPart entry.1 entry.2
  | d => d.IsScalar

instance (d : Datum) : Decidable (Form.IsPlain d) :=
  match d with
  | .record entries => inferInstanceAs (Decidable (∀ entry ∈ entries, Form.IsPlainPart entry.1 entry.2))
  | .list _ => isFalse id
  | .null | .bool _ | .int _ | .real _ | .text _ => isTrue trivial

/-- **Readers of a form.** -/
def Form.ofParts? (get : String → Option Datum) : Option Form := do
  let host ← (get "name").bind Datum.toText?
  let visibility ← Datum.partOr (get "visibility") .inherited fun d =>
    (d.toChoice? .json).bind Visibility.ofName?
  let fields ← Datum.partOr (get "fields") [] fun d =>
    d.toItems?.bind fun items => items.mapM (Field.ofDatum? .json)
  let validateAction ← Datum.partOr (get "validate_action") none (Datum.toOptional? .json Datum.toText?)
  let clearAction ← Datum.partOr (get "clear_action") none (Datum.toOptional? .json Datum.toText?)
  let onSuccess ← (get "on_success").bind Datum.toText?
  let onError ← Datum.partOr (get "on_error") none (Datum.toOptional? .json (ErrorCallback.ofDatum? .json))
  pure ⟨host, visibility, fields, validateAction, clearAction, onSuccess, onError⟩

theorem Form.ofDatum?_record (entries : List (String × Datum)) :
    Form.ofDatum? .json (.record entries) = Form.ofParts? fun key => Datum.entry? key entries :=
  rfl

/-- In JSON a value that may be left out reads when it is `null` or reads as itself. -/
theorem Datum.isSome_toOptional?_iff {α : Type} {decode : Datum → Option α} (d : Datum) :
    (d.toOptional? .json decode).isSome = true ↔ d = .null ∨ (decode d).isSome = true := by
  cases d <;> simp [Datum.toOptional?]

theorem isSome_mapM_iff {α β : Type} {read : α → Option β} (l : List α) :
    (l.mapM read).isSome = true ↔ ∀ a ∈ l, (read a).isSome = true := by
  induction l with
  | nil => simp
  | cons a rest ih =>
    rw [List.mapM_cons, List.forall_mem_cons, ← ih]
    exact isSome_bind_iff fun _ _ => isSome_bind_pure

/-- A plain value under another key than these two is no list and no record. -/
theorem Form.isScalar_of_isPlainPart {key : String} {d : Datum} (h : Form.IsPlainPart key d)
    (hfields : key ≠ "fields") (honError : key ≠ "on_error") : d.IsScalar := by
  cases d with
  | list items => exact absurd h.1 hfields
  | record entries => exact absurd h.1 honError
  | _ => trivial

theorem Form.isSome_fields_iff (d : Datum) :
    (d.toItems?.bind fun items => items.mapM (Field.ofDatum? .json)).isSome = true ↔
      ∃ items, d = .list items ∧ ∀ item ∈ items, Field.IsWritten RuleKind.IsTaggedBy item := by
  cases d with
  | list items => simp [Datum.toItems?, isSome_mapM_iff, Field.isSome_ofDatum?_iff]
  | _ => simp [Datum.toItems?]

theorem Form.isSome_onError_iff {d : Datum} (h : Form.IsPlainPart "on_error" d) :
    (d.toOptional? .json (ErrorCallback.ofDatum? .json)).isSome = true ↔
      d = .null ∨ ErrorCallback.IsWritten d := by
  rw [Datum.isSome_toOptional?_iff]
  refine or_congr_right ?_
  cases d with
  | record entries => exact ErrorCallback.isSome_ofDatum?_iff h.2
  | list items => exact absurd h.1 (by decide)
  | _ => simp [ErrorCallback.ofDatum?, Datum.toParts?, ErrorCallback.IsWritten]

/-- **Which plain data are models.** -/
theorem Form.isSome_ofDatum?_iff {d : Datum} (hplain : Form.IsPlain d) :
    (Form.ofDatum? .json d).isSome = true ↔ Form.IsWritten RuleKind.IsTaggedBy d := by
  cases d with
  | record entries =>
    let get := fun key => Datum.entry? key entries
    -- a value that is looked up is one of the entries, so it is plain for its key
    have hpart {key : String} {d : Datum} (hd : get key = some d) : Form.IsPlainPart key d :=
      hplain _ (Datum.mem_of_entry?_eq_some hd)
    have text (key : String) :=
      Part.inOrder_mandatory get key fun d _ => Datum.isSome_toText?_iff d
    have member (key : String) := Part.inOrder_optional get key (none : Option String) fun d _ =>
        (Datum.isSome_toOptional?_iff d).trans (or_congr_right (Datum.isSome_toText?_iff d))
    have visibility := Part.inOrder_optional get "visibility" Visibility.inherited fun d hd =>
        Datum.isSome_toChoice?_bind_iff Visibility.isSome_ofName?_iff
          (Form.isScalar_of_isPlainPart (hpart hd) (by decide) (by decide))
    have fields := Part.inOrder_optional get "fields" ([] : List Field)
      fun d _ => Form.isSome_fields_iff d
    have onError := Part.inOrder_optional get "on_error" (none : Option ErrorCallback)
      fun d hd => Form.isSome_onError_iff (hpart hd)
    simp only [Form.IsWritten, Datum.record.injEq, exists_eq_left']
    change _ ↔ ∀ part ∈ Form.parts RuleKind.IsTaggedBy, part.InOrder get
    simp only [Form.parts, List.forall_mem_cons, List.not_mem_nil, false_implies, implies_true,
      and_true, text, visibility, fields, member, onError]
    exact isSome_bind_iff fun _ _ => isSome_bind_iff fun _ _ => isSome_bind_iff fun _ _ =>
      isSome_bind_iff fun _ _ => isSome_bind_iff fun _ _ => isSome_bind_iff fun _ _ => isSome_bind_pure
  | list items => exact absurd hplain id
  | _ => simp [Form.ofDatum?, Datum.toParts?, Form.IsWritten]

end FormWiring
