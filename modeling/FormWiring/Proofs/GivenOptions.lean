import FormWiring.Derive.Field
import FormWiring.Proofs.OptionLists

/-!
# Options given to a rule

The attribute of a rule gives values to names. A value must be of the type of its option, and the number of a message
resource is checked as soon as it is read; whatever else is wrong with a value comes out later. Of the values given to
one name the last one counts, so the options read are known from the values last given.

Main statement: `RuleOptions.foldOptions_step_eq_ok_iff`.
-/

set_option autoImplicit false

namespace FormWiring

open Code OptionReader

/-! ## Types -/

/-- **Types of options.** -/
inductive OptionType where
  | text
  | truth
  | number
  deriving DecidableEq, Repr

namespace OptionType

/-- **Type of an option.** -/
def ofName (option : String) : OptionType :=
  if option ∈ ["error_message_res", "min", "max"] then .number
  else if option ∈ ["auto_dismiss", "required"] then .truth
  else .text

/-- **Values of a type.** Where a number is wanted, a text will do, and a number may have so many minuses. -/
def Admits (most : Nat) : OptionType → GivenValue → Prop
  | .text, v => ∃ s, v = .text s
  | .truth, v => ∃ b, v = .truth b
  | .number, v => v.IsNumeric most

end OptionType

namespace GivenValue

/-- **Text**, if it is one. -/
def text? : GivenValue → Option String
  | text s => some s
  | _ => none

/-- **Truth value**, if it is one. -/
def truth? : GivenValue → Option Bool
  | truth b => some b
  | _ => none

/-- **Digits**, if the value is one that a number option takes. -/
def digits? : GivenValue → Option String
  | truth _ => none
  | number minuses digits => if minuses ≤ 2 then some (number minuses digits).digits else none
  | text s => some (text s).digits

theorem text?_eq_some_iff {v : GivenValue} {s : String} : v.text? = some s ↔ v = .text s := by
  cases v <;> simp [text?]

theorem truth?_eq_some_iff {v : GivenValue} {b : Bool} : v.truth? = some b ↔ v = .truth b := by
  cases v <;> simp [truth?]

theorem digits?_eq_some_iff {v : GivenValue} {s : String} : v.digits? = some s ↔ v.IsNumeric 2 ∧ v.digits = s := by
  cases v <;> simp [digits?, IsNumeric]

theorem isSome_text?_iff {v : GivenValue} : v.text?.isSome = true ↔ ∃ s, v = .text s := by
  rw [Option.isSome_iff_exists]
  exact exists_congr fun s => text?_eq_some_iff

theorem isSome_truth?_iff {v : GivenValue} : v.truth?.isSome = true ↔ ∃ b, v = .truth b := by
  rw [Option.isSome_iff_exists]
  exact exists_congr fun b => truth?_eq_some_iff

theorem isSome_digits?_bind_iff {α : Type} {f : String → Option α} {v : GivenValue} :
    (v.digits?.bind f).isSome = true ↔ v.IsNumeric 2 ∧ (f v.digits).isSome = true := by
  simp [Option.isSome_iff_exists, Option.bind_eq_some_iff, digits?_eq_some_iff]

theorem isSome_digits?_iff {v : GivenValue} : v.digits?.isSome = true ↔ v.IsNumeric 2 := by
  simp [Option.isSome_iff_exists, digits?_eq_some_iff]

end GivenValue

/-! ## Values last given -/

/-- **Value last given** to a name. -/
def lastGiven (given : List (String × GivenValue)) (option : String) : Option GivenValue :=
  given.reverse.lookup option

theorem lastGiven_append_singleton (given : List (String × GivenValue)) (o : String × GivenValue) (option : String) :
    lastGiven (given ++ [o]) option = if option = o.1 then some o.2 else lastGiven given option := by
  unfold lastGiven
  rw [List.reverse_append, List.reverse_singleton, List.singleton_append, List.lookup_cons]
  by_cases h : option = o.1
  · rw [if_pos h, beq_iff_eq.2 h]
  · rw [if_neg h, beq_false_of_ne h]

theorem mem_of_lastGiven {given : List (String × GivenValue)} {option : String} {v : GivenValue}
    (h : lastGiven given option = some v) : (option, v) ∈ given := by
  obtain ⟨before, after, heq, -⟩ := List.lookup_eq_some_iff.1 h
  rw [← List.mem_reverse, heq]
  simp

theorem isSome_lastGiven_iff {given : List (String × GivenValue)} {option : String} :
    (lastGiven given option).isSome = true ↔ ∃ v, (option, v) ∈ given := by
  unfold lastGiven
  rw [List.lookup_isSome_iff]
  constructor
  · rintro ⟨⟨name, v⟩, hmem, heq⟩
    obtain rfl := beq_iff_eq.1 heq
    exact ⟨v, List.mem_reverse.1 hmem⟩
  · rintro ⟨v, hmem⟩
    exact ⟨(option, v), List.mem_reverse.2 hmem, BEq.rfl⟩

/-- **Same values given** to each option, in the same order; the options may stand in different orders. -/
def SameGiven (given given' : List (String × GivenValue)) : Prop :=
  ∀ option, given.filter (·.1 == option) = given'.filter (·.1 == option)

theorem SameGiven.mem_iff {given given' : List (String × GivenValue)} (h : SameGiven given given')
    (g : String × GivenValue) : g ∈ given ↔ g ∈ given' := by
  have hfilter (l : List (String × GivenValue)) : g ∈ l ↔ g ∈ l.filter (·.1 == g.1) := by
    simp
  rw [hfilter given, h, ← hfilter given']

/-- What is last given to an option is the last of the values given to it. -/
theorem lastGiven_eq_getLast? (given : List (String × GivenValue)) (option : String) :
    lastGiven given option = (given.filter (·.1 == option)).getLast?.map Prod.snd := by
  induction given using List.reverseRecOn with
  | nil => rfl
  | append_singleton given g ih =>
    rw [lastGiven_append_singleton, List.filter_append]
    by_cases h : option = g.1
    · simp [h]
    · simp [h, ih, Ne.symm h]

theorem SameGiven.lastGiven_eq {given given' : List (String × GivenValue)} (h : SameGiven given given') :
    lastGiven given = lastGiven given' := by
  funext option
  rw [lastGiven_eq_getLast?, lastGiven_eq_getLast?, h]

namespace RuleOptions

/-! ## Reading one option -/

/-- **Options with one more value**, if it is of the type of its option. -/
def give? (o : RuleOptions) (option : String) (v : GivenValue) : Option RuleOptions :=
  match option with
  | "error_message" => v.text?.map fun s => { o with errorMessage := some s }
  | "error_message_res" => (v.digits?.bind decimalInt32?).map fun id => { o with errorMessageRes := some id }
  | "auto_dismiss" => v.truth?.map fun b => { o with autoDismiss := some b }
  | "required" => v.truth?.map fun b => { o with required := some b }
  | "pattern" => v.text?.map fun s => { o with pattern := some s }
  | "min" => v.digits?.map fun s => { o with min := some s }
  | "max" => v.digits?.map fun s => { o with max := some s }
  | "date_format" => v.text?.map fun s => { o with dateFormat := some s }
  | "limit_date" => v.text?.map fun s => { o with limitDate := some s }
  | _ => none

section Read

variable {t rest : List Token} {o' : RuleOptions}

theorem textOption_eq_ok_iff (put : String → RuleOptions) :
    (textValue >>= fun s => pure (put s) : OptionReader RuleOptions) t = .ok (o', rest) ↔
      ∃ v joined spelling, t = .mark '=' joined :: (spelling ++ rest) ∧ GivenValue.Spells v spelling ∧
        v.text?.map put = some o' := by
  rw [bind_eq_ok_iff]
  constructor
  · rintro ⟨s, rest', htext, hpure⟩
    cases hpure
    obtain ⟨joined, spelling, rfl, hspells⟩ := textValue_eq_ok_iff.1 htext
    exact ⟨.text s, joined, spelling, rfl, hspells, rfl⟩
  · rintro ⟨v, joined, spelling, rfl, hspells, hput⟩
    obtain ⟨s, hs, rfl⟩ := Option.map_eq_some_iff.1 hput
    obtain rfl := GivenValue.text?_eq_some_iff.1 hs
    exact ⟨s, rest, textValue_eq_ok_iff.2 ⟨joined, spelling, rfl, hspells⟩, rfl⟩

theorem truthOption_eq_ok_iff (put : Bool → RuleOptions) :
    (truthValue >>= fun b => pure (put b) : OptionReader RuleOptions) t = .ok (o', rest) ↔
      ∃ v joined spelling, t = .mark '=' joined :: (spelling ++ rest) ∧ GivenValue.Spells v spelling ∧
        v.truth?.map put = some o' := by
  rw [bind_eq_ok_iff]
  constructor
  · rintro ⟨b, rest', htruth, hpure⟩
    cases hpure
    obtain ⟨joined, spelling, rfl, hspells⟩ := truthValue_eq_ok_iff.1 htruth
    exact ⟨.truth b, joined, spelling, rfl, hspells, rfl⟩
  · rintro ⟨v, joined, spelling, rfl, hspells, hput⟩
    obtain ⟨b, hb, rfl⟩ := Option.map_eq_some_iff.1 hput
    obtain rfl := GivenValue.truth?_eq_some_iff.1 hb
    exact ⟨b, rest, truthValue_eq_ok_iff.2 ⟨joined, spelling, rfl, hspells⟩, rfl⟩

/-- A number is read as its digits, and what is made of them may still fail. -/
theorem numberOption_eq_ok_iff {make : String → OptionReader RuleOptions} {put? : String → Option RuleOptions}
    (hmake : ∀ s t rest, make s t = .ok (o', rest) ↔ put? s = some o' ∧ t = rest) :
    (numberValue >>= make) t = .ok (o', rest) ↔
      ∃ v joined spelling, t = .mark '=' joined :: (spelling ++ rest) ∧ GivenValue.Spells v spelling ∧
        v.digits?.bind put? = some o' := by
  rw [bind_eq_ok_iff]
  constructor
  · rintro ⟨s, rest', hnumber, hmade⟩
    obtain ⟨hput, rfl⟩ := (hmake _ _ _).1 hmade
    obtain ⟨joined, v, spelling, rfl, hspells, hdigits⟩ := numberValue_eq_ok_iff.1 hnumber
    exact ⟨v, joined, spelling, rfl, hspells,
      Option.bind_eq_some_iff.2 ⟨s, GivenValue.digits?_eq_some_iff.2 hdigits, hput⟩⟩
  · rintro ⟨v, joined, spelling, rfl, hspells, hput⟩
    obtain ⟨s, hs, hput⟩ := Option.bind_eq_some_iff.1 hput
    exact ⟨s, rest, numberValue_eq_ok_iff.2 ⟨joined, v, spelling, rfl, hspells, GivenValue.digits?_eq_some_iff.1 hs⟩,
      (hmake _ _ _).2 ⟨hput, rfl⟩⟩

theorem pure_eq_ok_iff (o : RuleOptions) :
    (pure o : OptionReader RuleOptions) t = .ok (o', rest) ↔ some o = some o' ∧ t = rest := by
  constructor
  · intro h
    cases h
    exact ⟨rfl, rfl⟩
  · rintro ⟨⟨⟩, rfl⟩
    rfl

theorem digitsOption_eq_ok_iff (put : String → RuleOptions) :
    (numberValue >>= fun s => pure (put s) : OptionReader RuleOptions) t = .ok (o', rest) ↔
      ∃ v joined spelling, t = .mark '=' joined :: (spelling ++ rest) ∧ GivenValue.Spells v spelling ∧
        v.digits?.map put = some o' := by
  simp only [Option.map_eq_bind]
  exact numberOption_eq_ok_iff fun s t rest => pure_eq_ok_iff (put s)

/-- **Reading an option** takes a value of its type. -/
theorem read_eq_ok_iff {kind : RuleKind} {o : RuleOptions} {option : String} :
    read kind o option t = .ok (o', rest) ↔
      ∃ v joined spelling, t = .mark '=' joined :: (spelling ++ rest) ∧ GivenValue.Spells v spelling ∧
        o.give? option v = some o' := by
  unfold read
  split
  · exact textOption_eq_ok_iff fun s => { o with errorMessage := some s }
  · unfold give?
    simp only [Option.map_bind]
    refine numberOption_eq_ok_iff fun s t rest => ?_
    dsimp only [Function.comp]
    cases decimalInt32? s with
    | none =>
      constructor
      · intro h
        cases h
      · rintro ⟨h, -⟩
        cases h
    | some id => exact pure_eq_ok_iff { o with errorMessageRes := some id }
  · exact truthOption_eq_ok_iff fun b => { o with autoDismiss := some b }
  · exact truthOption_eq_ok_iff fun b => { o with required := some b }
  · exact textOption_eq_ok_iff fun s => { o with pattern := some s }
  · exact digitsOption_eq_ok_iff fun s => { o with min := some s }
  · exact digitsOption_eq_ok_iff fun s => { o with max := some s }
  · exact textOption_eq_ok_iff fun s => { o with dateFormat := some s }
  · exact textOption_eq_ok_iff fun s => { o with limitDate := some s }
  · have hnone (v : GivenValue) : o.give? option v = none := by
      unfold give?
      split <;> simp_all
    constructor
    · intro h
      cases h
    · rintro ⟨v, joined, spelling, -, -, hput⟩
      rw [hnone v] at hput
      cases hput

theorem stopsAtComma_read (kind : RuleKind) (o : RuleOptions) (option : String) :
    StopsAtComma (read kind o option) := by
  unfold read
  split
  · exact stopsAtComma_textValue.bind fun _ => .pure _
  · refine stopsAtComma_numberValue.bind fun s => ?_
    split
    · exact .pure _
    · exact .throw rfl
  · exact stopsAtComma_truthValue.bind fun _ => .pure _
  · exact stopsAtComma_truthValue.bind fun _ => .pure _
  · exact stopsAtComma_textValue.bind fun _ => .pure _
  · exact stopsAtComma_numberValue.bind fun _ => .pure _
  · exact stopsAtComma_numberValue.bind fun _ => .pure _
  · exact stopsAtComma_textValue.bind fun _ => .pure _
  · exact stopsAtComma_textValue.bind fun _ => .pure _
  · exact .throw rfl

theorem stopsAtComma_step (kind : RuleKind) (o : RuleOptions) (name : Option String) :
    StopsAtComma (step kind o name) := by
  unfold step
  split
  · exact .throw rfl
  · split
    · exact stopsAtComma_read kind o _
    · exact .throw rfl

end Read

/-! ## Options of a kind -/

/-- **Options of a kind**, its own and those of every rule. -/
def HasOption (kind : RuleKind) (option : String) : Prop :=
  option ∈ commonOptions ∨ option ∈ kind.options

instance (kind : RuleKind) (option : String) : Decidable (HasOption kind option) :=
  inferInstanceAs (Decidable (_ ∨ _))

/-- **Options with one more value**, if the kind has such an option and the value is of its type. -/
def accept? (kind : RuleKind) (o : RuleOptions) (given : String × GivenValue) : Option RuleOptions :=
  if HasOption kind given.1 then o.give? given.1 given.2 else none

theorem takes_step (kind : RuleKind) : Takes (step kind) Prod.fst Prod.snd (accept? kind) := by
  intro o name t o' rest
  have hcontains (option : String) :
      (commonOptions.contains option || kind.options.contains option) = true ↔ HasOption kind option := by
    simp [HasOption]
  unfold step
  constructor
  · intro h
    split at h
    · cases h
    · next option =>
      split at h
      · next hoption =>
        obtain ⟨v, joined, spelling, rfl, hspells, hgive⟩ := read_eq_ok_iff.1 h
        refine ⟨(option, v), joined, spelling, rfl, rfl, hspells, ?_⟩
        rw [accept?, if_pos ((hcontains option).1 hoption)]
        exact hgive
      · cases h
  · rintro ⟨⟨option, v⟩, joined, spelling, rfl, rfl, hspells, haccept⟩
    unfold accept? at haccept
    split at haccept
    · next hoption =>
      dsimp only
      rw [if_pos ((hcontains option).2 hoption)]
      exact read_eq_ok_iff.2 ⟨v, joined, spelling, rfl, hspells, haccept⟩
    · cases haccept

/-! ## All options -/

/-- **Options of given values.** -/
def ofGiven (get : String → Option GivenValue) : RuleOptions where
  errorMessage := (get "error_message").bind GivenValue.text?
  errorMessageRes := (get "error_message_res").bind fun v => v.digits?.bind decimalInt32?
  autoDismiss := (get "auto_dismiss").bind GivenValue.truth?
  required := (get "required").bind GivenValue.truth?
  pattern := (get "pattern").bind GivenValue.text?
  min := (get "min").bind GivenValue.digits?
  max := (get "max").bind GivenValue.digits?
  dateFormat := (get "date_format").bind GivenValue.text?
  limitDate := (get "limit_date").bind GivenValue.text?

/-- **Values that an option takes** when it is read: those of its type, and for a message resource an integer of 32
bits. -/
def Fits (option : String) (v : GivenValue) : Prop :=
  (OptionType.ofName option).Admits 2 v ∧
    (option = "error_message_res" → (decimalInt32? v.digits).isSome = true)

theorem HasOption.mem {kind : RuleKind} {option : String} (h : HasOption kind option) :
    option ∈ ["error_message", "error_message_res", "auto_dismiss", "required", "pattern", "min", "max", "date_format",
      "limit_date"] := by
  have hall : commonOptions ++ kind.options ⊆ ["error_message", "error_message_res", "auto_dismiss", "required",
      "pattern", "min", "max", "date_format", "limit_date"] := by
    cases kind <;> decide
  exact hall (List.mem_append.2 h)

/-- An option of the kind takes a value exactly if it fits. -/
theorem isSome_give?_iff {kind : RuleKind} {option : String} (h : HasOption kind option) (o : RuleOptions)
    (v : GivenValue) : (o.give? option v).isSome = true ↔ Fits option v := by
  have hmem := h.mem
  simp only [List.mem_cons, List.not_mem_nil, or_false] at hmem
  rcases hmem with rfl | rfl | rfl | rfl | rfl | rfl | rfl | rfl | rfl
  all_goals
    simp [give?, Fits, OptionType.ofName, OptionType.Admits, GivenValue.isSome_text?_iff,
      GivenValue.isSome_truth?_iff, GivenValue.isSome_digits?_iff, GivenValue.isSome_digits?_bind_iff]

/-- Giving a value that is taken changes what is last given to its name. -/
theorem give?_ofGiven {get : String → Option GivenValue} {option : String} {v : GivenValue} {o' : RuleOptions}
    (h : (ofGiven get).give? option v = some o') :
    o' = ofGiven fun name => if name = option then some v else get name := by
  unfold give? at h
  split at h
  case h_10 => cases h
  -- each option has a place of its own, and the other names are not its name
  all_goals
    obtain ⟨value, hvalue, rfl⟩ := Option.map_eq_some_iff.1 h
    simp [ofGiven, hvalue]

theorem accept?_ofGiven_eq_some_iff {kind : RuleKind} {get : String → Option GivenValue} {g : String × GivenValue}
    {o' : RuleOptions} :
    accept? kind (ofGiven get) g = some o' ↔
      (HasOption kind g.1 ∧ Fits g.1 g.2) ∧ o' = ofGiven fun name => if name = g.1 then some g.2 else get name := by
  unfold accept?
  constructor
  · intro h
    split at h
    · next hoption =>
      have hfits := (isSome_give?_iff hoption (ofGiven get) g.2).1 (Option.isSome_of_eq_some h)
      exact ⟨⟨hoption, hfits⟩, give?_ofGiven h⟩
    · cases h
  · rintro ⟨⟨hoption, hfits⟩, rfl⟩
    rw [if_pos hoption]
    obtain ⟨o', ho'⟩ := Option.isSome_iff_exists.1 ((isSome_give?_iff hoption (ofGiven get) g.2).2 hfits)
    rw [ho', give?_ofGiven ho']

/-- **Options accepted one after the other** are those of the values last given. -/
theorem foldlM_accept?_eq_some_iff {kind : RuleKind} {given : List (String × GivenValue)} {o' : RuleOptions} :
    given.foldlM (accept? kind) {} = some o' ↔
      (∀ g ∈ given, HasOption kind g.1 ∧ Fits g.1 g.2) ∧ o' = ofGiven (lastGiven given) := by
  -- on the last value given, since it is the one that counts
  induction given using List.reverseRecOn generalizing o' with
  | nil =>
    constructor
    · intro h
      cases h
      exact ⟨nofun, rfl⟩
    · rintro ⟨-, rfl⟩
      rfl
  | append_singleton given g ih =>
    have hlast : lastGiven (given ++ [g]) = fun name => if name = g.1 then some g.2 else lastGiven given name :=
      funext fun name => lastGiven_append_singleton given g name
    rw [List.foldlM_append, Option.bind_eq_bind, Option.bind_eq_some_iff, hlast]
    constructor
    · rintro ⟨o, ho, h⟩
      obtain ⟨hgiven, rfl⟩ := ih.1 ho
      rw [List.foldlM_cons, Option.bind_eq_bind, Option.bind_eq_some_iff] at h
      obtain ⟨o'', haccept, hpure⟩ := h
      cases hpure
      obtain ⟨hg, rfl⟩ := accept?_ofGiven_eq_some_iff.1 haccept
      exact ⟨List.forall_mem_append.2 ⟨hgiven, List.forall_mem_singleton.2 hg⟩, rfl⟩
    · rintro ⟨hall, rfl⟩
      obtain ⟨hgiven, hg⟩ := List.forall_mem_append.1 hall
      refine ⟨ofGiven (lastGiven given), ih.2 ⟨hgiven, rfl⟩, ?_⟩
      rw [List.foldlM_cons, accept?_ofGiven_eq_some_iff.2 ⟨hg g List.mem_cons_self, rfl⟩]
      rfl

/-- **Options of an attribute** are read if each is one of the kind, given a value that fits; of each the value last
given counts. -/
theorem foldOptions_step_eq_ok_iff {kind : RuleKind} {tokens : List Token} {o : RuleOptions} :
    foldOptions (step kind) {} tokens = .ok o ↔
      ∃ given, List.Forall₂ (fun g p => g.2.SpellsOption g.1 p) given (optionParts tokens) ∧
        (∀ g ∈ given, HasOption kind g.1 ∧ Fits g.1 g.2) ∧ o = ofGiven (lastGiven given) := by
  rw [foldOptions_eq_ok_iff (stopsAtComma_step kind) (takes_step kind)]
  exact exists_congr fun given => and_congr Iff.rfl foldlM_accept?_eq_some_iff

end RuleOptions

end FormWiring
