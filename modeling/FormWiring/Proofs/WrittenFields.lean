import FormWiring.Proofs.WrittenOptions

/-!
# Fields as they are written

A field object of a model and a rule attribute of a host say the same in two ways: the same parts under the same
names, the same ones left out. Both are read with defaults and mandatory parts of their own, kept in two places; here
the two are held against each other, kind by kind.

Main statement: `Field.ofAttribute_eq_ofDatum?`.
-/

set_option autoImplicit false

namespace FormWiring

open Code WrittenValue

/-! ## Options given -/

/-- **Values of names** with one more given. -/
def WrittenValue.give (get : String → Option WrittenValue) (o : String × WrittenValue) :
    String → Option WrittenValue :=
  fun name => if name = o.1 then some o.2 else get name

theorem WrittenValue.give_self (get : String → Option WrittenValue) (name : String) (v : WrittenValue) :
    give get (name, v) name = some v :=
  if_pos rfl

theorem WrittenValue.give_of_ne (get : String → Option WrittenValue) {name other : String} (v : WrittenValue)
    (h : other ≠ name) : give get (name, v) other = get other :=
  if_neg h

namespace RuleOptions

/-- **Options with one more value**, if it fits the name. -/
def put? (o : RuleOptions) (name : String) (v : WrittenValue) : Option RuleOptions :=
  match name with
  | "error_message" => v.text?.map fun s => { o with errorMessage := some s }
  | "error_message_res" => (v.digits?.bind decimalInt32?).map fun id => { o with errorMessageRes := some id }
  | "auto_dismiss" => v.truth?.map fun b => { o with autoDismiss := some b }
  | "required" => v.truth?.map fun b => { o with required := some b }
  | "pattern" => v.text?.map fun s => { o with pattern := some s }
  | "min" => v.digits?.map fun s => { o with min := some s }
  | "max" => v.digits?.map fun s => { o with max := some s }
  | "date_format" => v.text?.map fun s => { o with dateFormat := some s }
  | "limit_date" => v.text?.map fun s => { o with limitDate := some s }
  | _ => none

/-- **Options of given values**, whatever their order was. -/
def ofWritten (get : String → Option WrittenValue) : RuleOptions where
  errorMessage := (get "error_message").bind text?
  errorMessageRes := (get "error_message_res").bind fun v => v.digits?.bind decimalInt32?
  autoDismiss := (get "auto_dismiss").bind truth?
  required := (get "required").bind truth?
  pattern := (get "pattern").bind text?
  min := (get "min").bind digits?
  max := (get "max").bind digits?
  dateFormat := (get "date_format").bind text?
  limitDate := (get "limit_date").bind text?

/-- Reading an option whose value fits puts the value. -/
theorem read_of_put? {kind : RuleKind} {o o' : RuleOptions} {name : String} {v : WrittenValue}
    (h : o.put? name v = some o') {spelling : List Token} (hspells : v.Spells spelling) (joined : Bool)
    (rest : List Token) : read kind o name (.mark '=' joined :: (spelling ++ rest)) = .ok (o', rest) := by
  unfold put? at h
  split at h
  · obtain ⟨s, hs, rfl⟩ := Option.map_eq_some_iff.1 h
    exact OptionReader.bind_apply (OptionReader.textValue_apply hspells hs joined rest)
  · obtain ⟨id, hid, rfl⟩ := Option.map_eq_some_iff.1 h
    obtain ⟨s, hs, hid⟩ := Option.bind_eq_some_iff.1 hid
    refine (OptionReader.bind_apply (OptionReader.numberValue_apply hspells hs joined rest)).trans ?_
    rw [hid]
    rfl
  · obtain ⟨b, hb, rfl⟩ := Option.map_eq_some_iff.1 h
    exact OptionReader.bind_apply (OptionReader.truthValue_apply hspells hb joined rest)
  · obtain ⟨b, hb, rfl⟩ := Option.map_eq_some_iff.1 h
    exact OptionReader.bind_apply (OptionReader.truthValue_apply hspells hb joined rest)
  · obtain ⟨s, hs, rfl⟩ := Option.map_eq_some_iff.1 h
    exact OptionReader.bind_apply (OptionReader.textValue_apply hspells hs joined rest)
  · obtain ⟨s, hs, rfl⟩ := Option.map_eq_some_iff.1 h
    exact OptionReader.bind_apply (OptionReader.numberValue_apply hspells hs joined rest)
  · obtain ⟨s, hs, rfl⟩ := Option.map_eq_some_iff.1 h
    exact OptionReader.bind_apply (OptionReader.numberValue_apply hspells hs joined rest)
  · obtain ⟨s, hs, rfl⟩ := Option.map_eq_some_iff.1 h
    exact OptionReader.bind_apply (OptionReader.textValue_apply hspells hs joined rest)
  · obtain ⟨s, hs, rfl⟩ := Option.map_eq_some_iff.1 h
    exact OptionReader.bind_apply (OptionReader.textValue_apply hspells hs joined rest)
  · cases h

/-- Putting a value that fits gives it to its name and keeps the others. -/
theorem put?_ofWritten {get : String → Option WrittenValue} {name : String} {v : WrittenValue}
    (h : (put? {} name v).isSome = true) :
    (ofWritten get).put? name v = some (ofWritten (give get (name, v))) := by
  unfold put? at h ⊢
  split at h
  case h_10 => cases h
  all_goals
    rw [Option.isSome_map] at h
    obtain ⟨value, hvalue⟩ := Option.isSome_iff_exists.1 h
    simp only [ofWritten, hvalue, give_self, give_of_ne, ne_eq, String.reduceEq, not_false_eq_true, Option.map_some,
      Option.bind_some]

/-- **All values put**, one after the other, are the values last given to each name. -/
theorem foldlM_put? {options : List (String × WrittenValue)}
    (hfits : ∀ o ∈ options, (put? {} o.1 o.2).isSome = true) (get : String → Option WrittenValue) :
    options.foldlM (fun o e => o.put? e.1 e.2) (ofWritten get) =
      some (ofWritten (options.foldl give get)) := by
  induction options generalizing get with
  | nil => rfl
  | cons o options ih =>
    rw [List.foldlM_cons, put?_ofWritten (hfits o List.mem_cons_self)]
    exact ih (fun e he => hfits e (List.mem_cons_of_mem o he)) _

/-- Names that are given once have the value they are given, wherever it stands. -/
theorem foldl_give {options : List (String × WrittenValue)} (hnodup : (options.map Prod.fst).Nodup)
    (get : String → Option WrittenValue) (name : String) :
    options.foldl give get name = (options.lookup name).or (get name) := by
  induction options generalizing get with
  | nil => rfl
  | cons o options ih =>
    obtain ⟨key, v⟩ := o
    rw [List.map_cons, List.nodup_cons] at hnodup
    rw [List.foldl_cons, ih hnodup.2, List.lookup_cons]
    by_cases h : name = key
    · -- the name is not given again, so nothing after it changes its value
      subst h
      have hnone : options.lookup name = none := by
        rw [List.lookup_eq_none_iff]
        intro e he
        rw [bne_iff_ne]
        rintro rfl
        exact hnodup.1 (List.mem_map.2 ⟨e, he, rfl⟩)
      rw [hnone, beq_self_eq_true, give_self]
      rfl
    · rw [give_of_ne get v h, beq_eq_false_iff_ne.2 h]

/-- **Reading a row of options** that the kind accepts gives them as they were written, in any order. -/
theorem foldOptions_step {kind : RuleKind} {options : List (String × WrittenValue)} {tokens : List Token}
    (hwrites : WritesOptions options tokens) (hnodup : (options.map Prod.fst).Nodup)
    (haccepts : ∀ o ∈ options, o.1 ∈ commonOptions ∨ o.1 ∈ kind.options)
    (hfits : ∀ o ∈ options, (put? {} o.1 o.2).isSome = true) :
    OptionReader.foldOptions (step kind) {} tokens = .ok (ofWritten fun name => options.lookup name) := by
  have hfold := foldlM_put? hfits fun _ => none
  have hget : options.foldl give (fun _ => none) = fun name => options.lookup name := by
    funext name
    rw [foldl_give hnodup, Option.or_none]
  rw [hget] at hfold
  refine OptionReader.foldOptions_of_writes (fun o o' e he hput spelling hspells joined rest => ?_) hwrites hfold
  have haccepted : (commonOptions.contains e.1 || kind.options.contains e.1) = true := by
    simpa using haccepts e he
  unfold step
  dsimp only
  rw [if_pos haccepted]
  exact read_of_put? hput hspells joined rest

end RuleOptions

/-! ## Parts of a field object -/

/-- **Same parts**: the field object has a part exactly where an option is given, and the same value in it. -/
def SameParts (get : String → Option WrittenValue) (parts : String → Option Datum) : Prop :=
  ∀ name, name ≠ "name" → name ≠ "rule" → parts name = (get name).map datum

section Values

variable {v : WrittenValue} {x : Option WrittenValue}

theorem toText?_datum (v : WrittenValue) : v.datum.toText? = v.text? := by
  cases v <;> rfl

theorem toBool?_datum (v : WrittenValue) : v.datum.toBool? = v.truth? := by
  cases v <;> rfl

/-- A text is taken for a number as it is, unless blanks are to be dropped. -/
theorem digits?_of_text? {s : String} (h : v.text? = some s) (htrim : Text.trim s = s) : v.digits? = some s := by
  cases v with
  | text value =>
    cases h
    exact congrArg some htrim
  | truth => cases h
  | number => cases h

theorem digits?_of_toInt64? {n : Int64} (h : v.datum.toInt64? = some n) :
    ∃ s, v.digits? = some s ∧ decimalInt64? s = some n := by
  cases v with
  | text => cases h
  | truth => cases h
  | number negative magnitude => exact ⟨_, rfl, (decimalInt64?_printed negative magnitude).trans h⟩

theorem digits?_of_toInt32? {n : Int32} (h : v.datum.toInt32? = some n) :
    v.digits?.bind decimalInt32? = some n := by
  cases v with
  | text => cases h
  | truth => cases h
  | number negative magnitude => exact (decimalInt32?_printed negative magnitude).trans h

/-- The two ways to leave a part to its default agree. -/
theorem getD_of_partOr {α : Type} {fallback a : α} {decode : Datum → Option α} {pick : WrittenValue → Option α}
    (hpick : ∀ v b, decode v.datum = some b → pick v = some b)
    (h : Datum.partOr (x.map datum) fallback decode = some a) : (x.bind pick).getD fallback = a := by
  cases x with
  | none =>
    cases h
    rfl
  | some v =>
    rw [Option.bind_some, hpick v a h]
    rfl

/-- The two ways to leave a bound out agree. -/
theorem bound_of_partOr {n : Int64} (h : Datum.partOr (x.map datum) 0 Datum.toInt64? = some n) :
    RuleOptions.bound (x.bind digits?) = .ok n := by
  cases x with
  | none =>
    cases h
    rfl
  | some v =>
    obtain ⟨s, hs, hn⟩ := digits?_of_toInt64? h
    unfold RuleOptions.bound
    rw [Option.bind_some, hs]
    dsimp only
    rw [hn]

end Values

/-! ## Rules -/

section Rules

variable {get : String → Option WrittenValue} {parts : String → Option Datum}

/-- The flag of a rule is the same either way. -/
theorem SameParts.required (h : SameParts get parts) {b : Bool}
    (hb : Datum.partOr (parts "required") true Datum.toBool? = some b) :
    (RuleOptions.ofWritten get).required.getD true = b := by
  rw [h "required" (by decide) (by decide)] at hb
  exact getD_of_partOr (fun v b hv => (toBool?_datum v).symm.trans hv) hb

/-- A mandatory text is the same either way. -/
theorem SameParts.text (h : SameParts get parts) {name s : String} (hname : name ≠ "name") (hrule : name ≠ "rule")
    (hs : (parts name).bind Datum.toText? = some s) : (get name).bind text? = some s := by
  rw [h name hname hrule, Option.bind_map] at hs
  exact (Option.bind_congr fun v _ => (toText?_datum v).symm).trans hs

/-- A mandatory number that is written as a text is the same either way, if it has no blanks around it. -/
theorem SameParts.digits (h : SameParts get parts) {name s : String} (hname : name ≠ "name") (hrule : name ≠ "rule")
    (htrim : Text.trim s = s) (hs : (parts name).bind Datum.toText? = some s) :
    (get name).bind digits? = some s := by
  obtain ⟨v, hv, hs⟩ := Option.bind_eq_some_iff.1 (h.text hname hrule hs)
  rw [hv, Option.bind_some]
  exact digits?_of_text? hs htrim

/-- A bound is the same either way. -/
theorem SameParts.bound (h : SameParts get parts) {name : String} {n : Int64} (hname : name ≠ "name")
    (hrule : name ≠ "rule") (hn : Datum.partOr (parts name) 0 Datum.toInt64? = some n) :
    RuleOptions.bound ((get name).bind digits?) = .ok n := by
  rw [h name hname hrule] at hn
  exact bound_of_partOr hn

/-- **Rules agree**: the rule that the parts of a field object decode to is the one built from the options. Bounds of a
numeric limit are texts, which the options take without the blanks around them. -/
theorem SameParts.toRule (h : SameParts get parts) {kind : RuleKind} {rule : Rule}
    (hrule : Rule.ofParts? parts kind = some rule)
    (htrim : ∀ min max required, rule = .numericLimit min max required → Text.trim min = min ∧ Text.trim max = max) :
    (RuleOptions.ofWritten get).toRule kind = .ok rule := by
  unfold Rule.ofParts? at hrule
  unfold RuleOptions.toRule
  -- the two tables are held against each other kind by kind
  cases kind
  case required | confirmEmail | confirmPassword | betweenStart | betweenLimit =>
    cases hrule
    rfl
  case pattern =>
    obtain ⟨regex, hregex, hrule⟩ := Option.bind_eq_some_iff.1 hrule
    obtain ⟨b, hb, hrule⟩ := Option.bind_eq_some_iff.1 hrule
    cases hrule
    have hpattern : (RuleOptions.ofWritten get).pattern = some regex := h.text (by decide) (by decide) hregex
    dsimp only
    rw [h.required hb, hpattern]
    rfl
  case length =>
    obtain ⟨min, hmin, hrule⟩ := Option.bind_eq_some_iff.1 hrule
    obtain ⟨max, hmax, hrule⟩ := Option.bind_eq_some_iff.1 hrule
    obtain ⟨b, hb, hrule⟩ := Option.bind_eq_some_iff.1 hrule
    cases hrule
    have hmin : RuleOptions.bound (RuleOptions.ofWritten get).min = .ok min := h.bound (by decide) (by decide) hmin
    have hmax : RuleOptions.bound (RuleOptions.ofWritten get).max = .ok max := h.bound (by decide) (by decide) hmax
    dsimp only
    rw [h.required hb, hmin, hmax]
    rfl
  case password =>
    obtain ⟨min, hmin, hrule⟩ := Option.bind_eq_some_iff.1 hrule
    obtain ⟨regex, hregex, hrule⟩ := Option.bind_eq_some_iff.1 hrule
    cases hrule
    have hmin : RuleOptions.bound (RuleOptions.ofWritten get).min = .ok min := h.bound (by decide) (by decide) hmin
    have hpattern : (RuleOptions.ofWritten get).pattern.getD "" = regex := by
      rw [h "pattern" (by decide) (by decide)] at hregex
      exact getD_of_partOr (fun v b hv => (toText?_datum v).symm.trans hv) hregex
    dsimp only
    rw [hmin, hpattern]
    rfl
  case numericLimit =>
    obtain ⟨min, hmin, hrule⟩ := Option.bind_eq_some_iff.1 hrule
    obtain ⟨max, hmax, hrule⟩ := Option.bind_eq_some_iff.1 hrule
    obtain ⟨b, hb, hrule⟩ := Option.bind_eq_some_iff.1 hrule
    cases hrule
    obtain ⟨hmintrim, hmaxtrim⟩ := htrim min max b rfl
    have hmin : (RuleOptions.ofWritten get).min = some min := h.digits (by decide) (by decide) hmintrim hmin
    have hmax : (RuleOptions.ofWritten get).max = some max := h.digits (by decide) (by decide) hmaxtrim hmax
    dsimp only
    rw [h.required hb, hmin, hmax]
    rfl
  case pastDate | futureDate =>
    obtain ⟨dateFormat, hformat, hrule⟩ := Option.bind_eq_some_iff.1 hrule
    obtain ⟨limitDate, hlimit, hrule⟩ := Option.bind_eq_some_iff.1 hrule
    obtain ⟨b, hb, hrule⟩ := Option.bind_eq_some_iff.1 hrule
    cases hrule
    have hformat : (RuleOptions.ofWritten get).dateFormat = some dateFormat :=
      h.text (by decide) (by decide) hformat
    have hlimit : (RuleOptions.ofWritten get).limitDate = some limitDate := h.text (by decide) (by decide) hlimit
    dsimp only
    rw [h.required hb, hformat, hlimit]
    rfl
  -- the other kinds have a flag and nothing else
  all_goals
    obtain ⟨b, hb, hrule⟩ := Option.map_eq_some_iff.1 hrule
    cases hrule
    dsimp only
    rw [h.required hb]
    rfl

/-! ## Values that fit -/

variable {v : WrittenValue}

theorem SameParts.decode_of_partOr (h : SameParts get parts) {name : String} (hname : name ≠ "name")
    (hrule : name ≠ "rule") (hv : get name = some v) {α : Type} {fallback a : α} {decode : Datum → Option α}
    (ha : Datum.partOr (parts name) fallback decode = some a) : decode v.datum = some a := by
  rw [h name hname hrule, hv] at ha
  exact ha

theorem SameParts.decode_of_bind (h : SameParts get parts) {name : String} (hname : name ≠ "name")
    (hrule : name ≠ "rule") (hv : get name = some v) {α : Type} {a : α} {decode : Datum → Option α}
    (ha : (parts name).bind decode = some a) : decode v.datum = some a := by
  rw [h name hname hrule, hv] at ha
  exact ha

theorem fits_truth {name : String} (hname : name = "required" ∨ name = "auto_dismiss") {b : Bool}
    (hb : v.datum.toBool? = some b) : (RuleOptions.put? {} name v).isSome = true := by
  rw [toBool?_datum] at hb
  rcases hname with rfl | rfl
  · exact (Option.isSome_map).trans (Option.isSome_iff_exists.2 ⟨b, hb⟩)
  · exact (Option.isSome_map).trans (Option.isSome_iff_exists.2 ⟨b, hb⟩)

theorem fits_text {name : String}
    (hname : name = "pattern" ∨ name = "date_format" ∨ name = "limit_date" ∨ name = "error_message") {s : String}
    (hs : v.datum.toText? = some s) : (RuleOptions.put? {} name v).isSome = true := by
  rw [toText?_datum] at hs
  rcases hname with rfl | rfl | rfl | rfl
  all_goals exact (Option.isSome_map).trans (Option.isSome_iff_exists.2 ⟨s, hs⟩)

theorem fits_digits {name : String} (hname : name = "min" ∨ name = "max") {s : String}
    (hs : v.digits? = some s) : (RuleOptions.put? {} name v).isSome = true := by
  rcases hname with rfl | rfl
  · exact (Option.isSome_map).trans (Option.isSome_iff_exists.2 ⟨s, hs⟩)
  · exact (Option.isSome_map).trans (Option.isSome_iff_exists.2 ⟨s, hs⟩)

theorem isSome_digits?_of_toText? {s : String} (hs : v.datum.toText? = some s) : ∃ t, v.digits? = some t := by
  cases v with
  | text value => exact ⟨_, rfl⟩
  | truth => cases hs
  | number => cases hs

theorem SameParts.fits_required (h : SameParts get parts) {b : Bool}
    (hb : Datum.partOr (parts "required") true Datum.toBool? = some b) (hv : get "required" = some v) :
    (RuleOptions.put? {} "required" v).isSome = true :=
  fits_truth (.inl rfl) (h.decode_of_partOr (by decide) (by decide) hv hb)

theorem SameParts.fits_bound (h : SameParts get parts) {name : String} (hname : name = "min" ∨ name = "max")
    {n : Int64} (hn : Datum.partOr (parts name) 0 Datum.toInt64? = some n) (hv : get name = some v) :
    (RuleOptions.put? {} name v).isSome = true := by
  have hkey : name ≠ "name" ∧ name ≠ "rule" := by
    rcases hname with rfl | rfl <;> decide
  obtain ⟨s, hs, -⟩ := digits?_of_toInt64? (h.decode_of_partOr hkey.1 hkey.2 hv hn)
  exact fits_digits hname hs

theorem SameParts.fits_limit (h : SameParts get parts) {name : String} (hname : name = "min" ∨ name = "max")
    {s : String} (hs : (parts name).bind Datum.toText? = some s) (hv : get name = some v) :
    (RuleOptions.put? {} name v).isSome = true := by
  have hkey : name ≠ "name" ∧ name ≠ "rule" := by
    rcases hname with rfl | rfl <;> decide
  obtain ⟨t, ht⟩ := isSome_digits?_of_toText? (h.decode_of_bind hkey.1 hkey.2 hv hs)
  exact fits_digits hname ht

/-- **Values fit**: what decodes as a part of a field object can be read as the option of that name. -/
theorem SameParts.fits (h : SameParts get parts) {kind : RuleKind} {rule : Rule}
    (hrule : Rule.ofParts? parts kind = some rule) {name : String} (hname : name ∈ kind.options)
    (hv : get name = some v) : (RuleOptions.put? {} name v).isSome = true := by
  unfold Rule.ofParts? at hrule
  cases kind
  case required | confirmEmail | confirmPassword | betweenStart | betweenLimit => cases hname
  case pattern =>
    obtain ⟨regex, hregex, hrule⟩ := Option.bind_eq_some_iff.1 hrule
    obtain ⟨b, hb, hrule⟩ := Option.bind_eq_some_iff.1 hrule
    simp only [RuleKind.options, List.mem_cons, List.not_mem_nil, or_false] at hname
    rcases hname with rfl | rfl
    · exact fits_text (.inl rfl) (h.decode_of_bind (by decide) (by decide) hv hregex)
    · exact h.fits_required hb hv
  case length =>
    obtain ⟨min, hmin, hrule⟩ := Option.bind_eq_some_iff.1 hrule
    obtain ⟨max, hmax, hrule⟩ := Option.bind_eq_some_iff.1 hrule
    obtain ⟨b, hb, hrule⟩ := Option.bind_eq_some_iff.1 hrule
    simp only [RuleKind.options, List.mem_cons, List.not_mem_nil, or_false] at hname
    rcases hname with rfl | rfl | rfl
    · exact h.fits_bound (.inl rfl) hmin hv
    · exact h.fits_bound (.inr rfl) hmax hv
    · exact h.fits_required hb hv
  case password =>
    obtain ⟨min, hmin, hrule⟩ := Option.bind_eq_some_iff.1 hrule
    obtain ⟨regex, hregex, hrule⟩ := Option.bind_eq_some_iff.1 hrule
    simp only [RuleKind.options, List.mem_cons, List.not_mem_nil, or_false] at hname
    rcases hname with rfl | rfl
    · exact h.fits_bound (.inl rfl) hmin hv
    · exact fits_text (.inl rfl) (h.decode_of_partOr (by decide) (by decide) hv hregex)
  case numericLimit =>
    obtain ⟨min, hmin, hrule⟩ := Option.bind_eq_some_iff.1 hrule
    obtain ⟨max, hmax, hrule⟩ := Option.bind_eq_some_iff.1 hrule
    obtain ⟨b, hb, hrule⟩ := Option.bind_eq_some_iff.1 hrule
    simp only [RuleKind.options, List.mem_cons, List.not_mem_nil, or_false] at hname
    rcases hname with rfl | rfl | rfl
    · exact h.fits_limit (.inl rfl) hmin hv
    · exact h.fits_limit (.inr rfl) hmax hv
    · exact h.fits_required hb hv
  case pastDate | futureDate =>
    obtain ⟨dateFormat, hformat, hrule⟩ := Option.bind_eq_some_iff.1 hrule
    obtain ⟨limitDate, hdate, hrule⟩ := Option.bind_eq_some_iff.1 hrule
    obtain ⟨b, hb, hrule⟩ := Option.bind_eq_some_iff.1 hrule
    simp only [RuleKind.options, List.mem_cons, List.not_mem_nil, or_false] at hname
    rcases hname with rfl | rfl | rfl
    · exact fits_text (.inr (.inl rfl)) (h.decode_of_bind (by decide) (by decide) hv hformat)
    · exact fits_text (.inr (.inr (.inl rfl))) (h.decode_of_bind (by decide) (by decide) hv hdate)
    · exact h.fits_required hb hv
  -- the other kinds have a flag and nothing else
  all_goals
    obtain ⟨b, hb, hrule⟩ := Option.map_eq_some_iff.1 hrule
    simp only [RuleKind.options, List.mem_cons, List.not_mem_nil, or_false] at hname
    subst hname
    exact h.fits_required hb hv

theorem fits_resource {id : Int32} (hid : v.datum.toInt32? = some id) :
    (RuleOptions.put? {} "error_message_res" v).isSome = true :=
  (Option.isSome_map).trans (Option.isSome_iff_exists.2 ⟨id, digits?_of_toInt32? hid⟩)

/-- The rule that parts decode to is of the kind they were decoded for. -/
theorem kind_of_ofParts? {kind : RuleKind} {rule : Rule} (h : Rule.ofParts? parts kind = some rule) :
    rule.kind = kind := by
  unfold Rule.ofParts? at h
  cases kind
  case required | confirmEmail | confirmPassword | betweenStart | betweenLimit =>
    cases h
    rfl
  case pattern | password =>
    obtain ⟨_, _, h⟩ := Option.bind_eq_some_iff.1 h
    obtain ⟨_, _, h⟩ := Option.bind_eq_some_iff.1 h
    cases h
    rfl
  case length | numericLimit | pastDate | futureDate =>
    obtain ⟨_, _, h⟩ := Option.bind_eq_some_iff.1 h
    obtain ⟨_, _, h⟩ := Option.bind_eq_some_iff.1 h
    obtain ⟨_, _, h⟩ := Option.bind_eq_some_iff.1 h
    cases h
    rfl
  all_goals
    obtain ⟨_, _, h⟩ := Option.map_eq_some_iff.1 h
    cases h
    rfl

end Rules

/-! ## Fields -/

/-- **Body written** for options: a group with the options in it, which may be left out when there are none. -/
inductive WritesBody : List (String × WrittenValue) → AttributeBody → Prop where
  | bare : WritesBody [] .bare
  | list {options : List (String × WrittenValue)} {tokens : List Token} (h : WritesOptions options tokens) :
      WritesBody options (.list tokens)

/-- **Options written** for the entries of a field object: one for each entry but the name and the rule, in any order,
each with the value of its entry. -/
structure WritesEntries (entries : List (String × Datum)) (options : List (String × WrittenValue)) : Prop where
  nodup : (options.map Prod.fst).Nodup
  same : ∀ key, (options.lookup key).map datum =
    if key = "name" ∨ key = "rule" then none else Datum.entry? key entries

theorem lookup_of_mem {options : List (String × WrittenValue)} (hnodup : (options.map Prod.fst).Nodup)
    {o : String × WrittenValue} (ho : o ∈ options) : options.lookup o.1 = some o.2 := by
  induction options with
  | nil => cases ho
  | cons e options ih =>
    rw [List.map_cons, List.nodup_cons] at hnodup
    rw [List.lookup_cons]
    rcases List.mem_cons.1 ho with rfl | ho
    · simp
    · have hne : o.1 ≠ e.1 := fun heq => hnodup.1 (heq ▸ List.mem_map_of_mem ho)
      rw [beq_eq_false_iff_ne.2 hne]
      exact ih hnodup.2 ho

namespace WritesEntries

variable {entries : List (String × Datum)} {options : List (String × WrittenValue)}

theorem sameParts (h : WritesEntries entries options) :
    SameParts (fun name => options.lookup name) (fun name => Datum.entry? name entries) := by
  intro name hname hrule
  have hsame := h.same name
  rw [if_neg (by simp [hname, hrule])] at hsame
  exact hsame.symm

/-- An option is none of the name and the rule, and stands for an entry. -/
theorem entry?_of_mem (h : WritesEntries entries options) {o : String × WrittenValue} (ho : o ∈ options) :
    o.1 ≠ "name" ∧ o.1 ≠ "rule" ∧ (Datum.entry? o.1 entries).isSome = true := by
  have hsame := h.same o.1
  rw [lookup_of_mem h.nodup ho, Option.map_some] at hsame
  by_cases hkey : o.1 = "name" ∨ o.1 = "rule"
  · rw [if_pos hkey] at hsame
    cases hsame
  · rw [if_neg hkey] at hsame
    rw [not_or] at hkey
    refine ⟨hkey.1, hkey.2, ?_⟩
    rw [← hsame]
    rfl

end WritesEntries

/-- **Entries of its own** only: a field object has a name, a rule and options that its rule accepts. -/
def Field.OwnsEntries (field : Field) (entries : List (String × Datum)) : Prop :=
  ∀ e ∈ entries, e.1 = "name" ∨ e.1 = "rule" ∨ e.1 ∈ commonOptions ∨ e.1 ∈ field.kind.options

/-- **Trimmed bounds**: those of a numeric limit have no blanks around them. -/
def Field.HasTrimmedBounds (field : Field) : Prop :=
  ∀ min max required, field.rule = .numericLimit min max required → Text.trim min = min ∧ Text.trim max = max

/-- **A field object and its attribute say the same.** The attribute reads as the field that the object decodes to, if
the object has entries of its own rule only and the bounds of a numeric limit have no blanks around them. -/
theorem Field.ofAttribute_eq_ofDatum? {entries : List (String × Datum)} {field : Field}
    (hfield : Field.ofDatum? .json (.record entries) = some field)
    (hown : field.OwnsEntries entries) (htrim : field.HasTrimmedBounds)
    {options : List (String × WrittenValue)} (hentries : WritesEntries entries options) {body : AttributeBody}
    (hbody : WritesBody options body) : Field.ofAttribute field.name field.kind body = .ok field := by
  obtain ⟨name, -, hfield⟩ := Option.bind_eq_some_iff.1 hfield
  obtain ⟨kind, -, hfield⟩ := Option.bind_eq_some_iff.1 hfield
  obtain ⟨rule, hrule, hfield⟩ := Option.bind_eq_some_iff.1 hfield
  obtain ⟨resource, hresource, hfield⟩ := Option.bind_eq_some_iff.1 hfield
  obtain ⟨text, htext, hfield⟩ := Option.bind_eq_some_iff.1 hfield
  obtain ⟨autoDismiss, hdismiss, hfield⟩ := Option.bind_eq_some_iff.1 hfield
  cases hfield
  have hkind : rule.kind = kind := kind_of_ofParts? hrule
  subst hkind
  have hparts := hentries.sameParts
  -- every option is accepted, and its value fits
  have haccepts : ∀ o ∈ options, o.1 ∈ commonOptions ∨ o.1 ∈ rule.kind.options := by
    intro o ho
    obtain ⟨hname, hne, hsome⟩ := hentries.entry?_of_mem ho
    obtain ⟨e, he, hkey⟩ := List.lookup_isSome_iff.1 hsome
    rw [beq_iff_eq] at hkey
    rw [hkey] at hname hne ⊢
    exact ((hown e he).resolve_left hname).resolve_left hne
  have hfits : ∀ o ∈ options, (RuleOptions.put? {} o.1 o.2).isSome = true := by
    intro o ho
    have hv := lookup_of_mem hentries.nodup ho
    rcases haccepts o ho with hcommon | hoption
    · obtain ⟨key, v⟩ := o
      dsimp only at hv
      simp only [commonOptions, List.mem_cons, List.not_mem_nil, or_false] at hcommon
      rcases hcommon with rfl | rfl | rfl
      · exact fits_text (by simp) (hparts.decode_of_partOr (by decide) (by decide) hv htext)
      · exact fits_resource (hparts.decode_of_partOr (by decide) (by decide) hv hresource)
      · exact fits_truth (by simp) (hparts.decode_of_partOr (by decide) (by decide) hv hdismiss)
    · exact hparts.fits hrule hoption hv
  -- the parts common to all rules
  have hresource : (RuleOptions.ofWritten fun name => options.lookup name).errorMessageRes.getD unsetResource =
      resource := by
    rw [hparts "error_message_res" (by decide) (by decide)] at hresource
    exact getD_of_partOr (fun v id hid => digits?_of_toInt32? hid) hresource
  have htext : (RuleOptions.ofWritten fun name => options.lookup name).errorMessage.getD "" = text := by
    rw [hparts "error_message" (by decide) (by decide)] at htext
    exact getD_of_partOr (fun v s hs => (toText?_datum v).symm.trans hs) htext
  have hdismiss : (RuleOptions.ofWritten fun name => options.lookup name).autoDismiss.getD true = autoDismiss := by
    rw [hparts "auto_dismiss" (by decide) (by decide)] at hdismiss
    exact getD_of_partOr (fun v b hb => (toBool?_datum v).symm.trans hb) hdismiss
  have hfield : (RuleOptions.ofWritten fun name => options.lookup name).toField name rule.kind =
      .ok ⟨name, rule, resource, text, autoDismiss⟩ := by
    unfold RuleOptions.toField
    rw [hparts.toRule hrule htrim, hresource, htext, hdismiss]
    rfl
  cases hbody with
  | bare => exact hfield
  | list hwrites =>
    have hread := RuleOptions.foldOptions_step hwrites hentries.nodup haccepts hfits
    unfold Field.ofAttribute
    dsimp only
    rw [show (⟨name, rule, resource, text, autoDismiss⟩ : Field).kind = rule.kind from rfl, hread]
    exact hfield

end FormWiring
