import FormWiring.Derive.Callbacks
import FormWiring.Proofs.OptionLists

/-!
# Callbacks spread over attributes

The options of the callbacks may stand in one attribute or in several, among other attributes. They are read one after
the other, and what was read before is carried from one attribute to the next: the success callback given last counts,
and a second error callback is a conflict wherever it stands. Splitting the options differently changes nothing but
this: an option that breaks off at the end of its attribute has an error of its own.

Main statement: `Callbacks.ofAttributes_merged`.
-/

set_option autoImplicit false

namespace FormWiring

open Code OptionReader

/-! ## Options -/

/-- **Options of the callbacks.** -/
inductive CallbackOption where
  | success (method : String)
  | error (callback : ErrorCallback)
  deriving DecidableEq, Repr

namespace CallbackOption

/-- **Name of an option.** For an error callback it tells the arity. -/
def name : CallbackOption → String
  | success _ => "on_success"
  | error ⟨_, .bare⟩ => "on_error"
  | error ⟨_, .withErrors⟩ => "on_error_with_errors"

/-- **Method that an option names.** -/
def method : CallbackOption → String
  | success method => method
  | error callback => callback.method

/-- **Method of a success callback**, if it is one. -/
def success? : CallbackOption → Option String
  | success method => some method
  | error _ => none

/-- **Error callback**, if it is one. -/
def error? : CallbackOption → Option ErrorCallback
  | success _ => none
  | error callback => some callback

/-- **Spellings of an option**: its name is given a text for the method. -/
def Spells (o : CallbackOption) (p : List Token) : Prop :=
  (GivenValue.text o.method).SpellsOption o.name p

end CallbackOption

namespace Callbacks

/-- **Callbacks with one more option**, if it contradicts no other. -/
def give? (c : Callbacks) : CallbackOption → Option Callbacks
  | .success method => some { c with onSuccess := some method }
  | .error callback => if c.onError.isSome then none else some { c with onError := some callback }

/-- An error callback is added if there is none yet. -/
theorem addError_eq_ok_iff {c c' : Callbacks} {method : String} {arity : ErrorArity} :
    c.addError method arity = .ok c' ↔ c.give? (.error ⟨method, arity⟩) = some c' := by
  unfold addError give?
  dsimp only
  split
  · exact ⟨nofun, nofun⟩
  · exact ⟨fun h => by cases h; rfl, fun h => by cases h; rfl⟩

/-! ## One option -/

section Step

variable {c c' : Callbacks} {t rest : List Token}

theorem lift_eq_ok_iff {x : Except DeriveError Callbacks} :
    (liftM x : OptionReader Callbacks) t = .ok (c', rest) ↔ x = .ok c' ∧ t = rest := by
  cases x with
  | error e => exact ⟨nofun, nofun⟩
  | ok c =>
    constructor
    · intro h
      cases h
      exact ⟨rfl, rfl⟩
    · rintro ⟨⟨⟩, rfl⟩
      rfl

/-- The option of an error callback is read as its text, and then the callback is added. -/
theorem addError_textValue_eq_ok_iff (arity : ErrorArity) :
    (textValue >>= fun method => liftM (c.addError method arity) : OptionReader Callbacks) t = .ok (c', rest) ↔
      ∃ method joined spelling, t = .mark '=' joined :: (spelling ++ rest) ∧
        GivenValue.Spells (.text method) spelling ∧ c.give? (.error ⟨method, arity⟩) = some c' := by
  rw [bind_eq_ok_iff]
  constructor
  · rintro ⟨method, rest', htext, hlift⟩
    obtain ⟨hadd, rfl⟩ := lift_eq_ok_iff.1 hlift
    obtain ⟨joined, spelling, rfl, hspells⟩ := textValue_eq_ok_iff.1 htext
    exact ⟨method, joined, spelling, rfl, hspells, addError_eq_ok_iff.1 hadd⟩
  · rintro ⟨method, joined, spelling, rfl, hspells, hgive⟩
    exact ⟨method, rest, textValue_eq_ok_iff.2 ⟨joined, spelling, rfl, hspells⟩,
      lift_eq_ok_iff.2 ⟨addError_eq_ok_iff.2 hgive, rfl⟩⟩

/-- **The three names** are given texts. -/
theorem takes_step : Takes step CallbackOption.name (fun o => .text o.method) give? := by
  intro c name t c' rest
  constructor
  · intro h
    unfold step at h
    split at h
    · obtain ⟨method, rest', htext, hpure⟩ := bind_eq_ok_iff.1 h
      cases hpure
      obtain ⟨joined, spelling, rfl, hspells⟩ := textValue_eq_ok_iff.1 htext
      exact ⟨.success method, joined, spelling, rfl, rfl, hspells, rfl⟩
    · obtain ⟨method, joined, spelling, rfl, hspells, hgive⟩ := (addError_textValue_eq_ok_iff .bare).1 h
      exact ⟨.error ⟨method, .bare⟩, joined, spelling, rfl, rfl, hspells, hgive⟩
    · obtain ⟨method, joined, spelling, rfl, hspells, hgive⟩ := (addError_textValue_eq_ok_iff .withErrors).1 h
      exact ⟨.error ⟨method, .withErrors⟩, joined, spelling, rfl, rfl, hspells, hgive⟩
    · cases h
  · rintro ⟨o, joined, spelling, rfl, rfl, hspells, hgive⟩
    match o with
    | .success method =>
      cases hgive
      exact bind_eq_ok_iff.2 ⟨method, rest, textValue_eq_ok_iff.2 ⟨joined, spelling, rfl, hspells⟩, rfl⟩
    | .error ⟨method, .bare⟩ =>
      exact (addError_textValue_eq_ok_iff .bare).2 ⟨method, joined, spelling, rfl, hspells, hgive⟩
    | .error ⟨method, .withErrors⟩ =>
      exact (addError_textValue_eq_ok_iff .withErrors).2 ⟨method, joined, spelling, rfl, hspells, hgive⟩

theorem stopsAtComma_addError (c : Callbacks) (method : String) (arity : ErrorArity) :
    StopsAtComma (liftM (c.addError method arity) : OptionReader Callbacks) := by
  unfold addError
  split
  · exact StopsAtComma.throw rfl
  · exact StopsAtComma.pure _

theorem stopsAtComma_step (c : Callbacks) (name : Option String) : StopsAtComma (step c name) := by
  unfold step
  split
  · exact stopsAtComma_textValue.bind fun method => StopsAtComma.pure _
  · exact stopsAtComma_textValue.bind fun method => stopsAtComma_addError c method .bare
  · exact stopsAtComma_textValue.bind fun method => stopsAtComma_addError c method .withErrors
  · exact StopsAtComma.throw rfl

end Step

/-! ## All options -/

/-- **Options given one after the other**: the success callback given last counts, and there is one error callback at
most, those that were there before included. -/
theorem foldlM_give?_eq_some_iff {given : List CallbackOption} {c c' : Callbacks} :
    given.foldlM give? c = some c' ↔
      (c.onError.toList ++ given.filterMap CallbackOption.error?).length ≤ 1 ∧
        c'.onSuccess = (given.filterMap CallbackOption.success?).getLast?.or c.onSuccess ∧
          c'.onError = (c.onError.toList ++ given.filterMap CallbackOption.error?).head? := by
  induction given generalizing c with
  | nil =>
    obtain ⟨success, error⟩ := c
    obtain ⟨success', error'⟩ := c'
    cases error <;> simp [eq_comm]
  | cons o given ih =>
    rw [List.foldlM_cons]
    -- a success callback is there until the next one; an error callback is there for good
    cases o with
    | success method =>
      have hlast : (method :: given.filterMap CallbackOption.success?).getLast? =
          (given.filterMap CallbackOption.success?).getLast?.or (some method) := by
        rw [List.getLast?_cons]
        cases (given.filterMap CallbackOption.success?).getLast? <;> rfl
      have hsuccesses : (CallbackOption.success method :: given).filterMap CallbackOption.success? =
          method :: given.filterMap CallbackOption.success? := rfl
      rw [hsuccesses, hlast, Option.or_assoc, Option.some_or]
      exact ih (c := { c with onSuccess := some method })
    | error callback =>
      have herrors : (CallbackOption.error callback :: given).filterMap CallbackOption.error? =
          callback :: given.filterMap CallbackOption.error? := rfl
      rw [herrors]
      cases herror : c.onError with
      | none =>
        have hgive : c.give? (.error callback) = some { c with onError := some callback } := by
          rw [give?, herror]
          rfl
        rw [hgive]
        exact ih (c := { c with onError := some callback })
      | some other =>
        have hgive : c.give? (.error callback) = none := by
          rw [give?, herror]
          rfl
        rw [hgive]
        constructor
        · intro h
          cases h
        · rintro ⟨hle, -⟩
          simp at hle

/-! ## Attributes -/

/-- **Lists of options** for all callback attributes; other attributes may be anything. -/
def AreLists (attributes : List Attribute) : Prop :=
  ∀ a ∈ attributes, a.name = some "validation" → ∃ inside, a.body = .list inside

/-- **Options of the callback attributes**, in order. -/
def optionsOf (attributes : List Attribute) : List (List Token) :=
  attributes.flatMap fun a =>
    match a.body with
    | .list inside => if a.name = some "validation" then optionParts inside else []
    | _ => []

/-- One attribute among others does to the callbacks what its options do. -/
theorem ofAttribute_parts {a : Attribute} (ha : a.name = some "validation" → ∃ inside, a.body = .list inside)
    (c : Callbacks) :
    (ofAttribute c a).mapError DeriveError.beforeComma = (optionsOf [a]).foldlM (readPart step) c := by
  unfold ofAttribute optionsOf
  rw [List.flatMap_singleton]
  by_cases hname : a.name = some "validation"
  · obtain ⟨inside, hbody⟩ := ha hname
    rw [if_pos hname, hbody]
    dsimp only
    rw [if_pos hname]
    exact foldOptions_parts step stopsAtComma_step c inside
  · rw [if_neg hname]
    cases a.body with
    | list inside =>
      dsimp only
      rw [if_neg hname]
      rfl
    | bare => rfl
    | value => rfl

/-- **All attributes** do to the callbacks what their options do, one after the other. -/
theorem foldlM_ofAttribute_parts {attributes : List Attribute} (hlists : AreLists attributes) (c : Callbacks) :
    (attributes.foldlM ofAttribute c).mapError DeriveError.beforeComma =
      (optionsOf attributes).foldlM (readPart step) c := by
  induction attributes generalizing c with
  | nil => rfl
  | cons a attributes ih =>
    have hfirst := ofAttribute_parts (hlists a List.mem_cons_self) c
    have hsplit : optionsOf (a :: attributes) = optionsOf [a] ++ optionsOf attributes := by
      unfold optionsOf
      rw [List.flatMap_singleton, List.flatMap_cons]
    rw [List.foldlM_cons, hsplit, List.foldlM_append, ← hfirst]
    cases ofAttribute c a with
    | error e => rfl
    | ok c' => exact ih (fun b hb => hlists b (List.mem_cons_of_mem a hb)) c'

/-- **Callbacks in order**: every option is one of the three with a text, there is one error callback at most, and
the success callback is the one given last. -/
def AreGivenBy (c : Callbacks) (options : List (List Token)) : Prop :=
  ∃ given : List CallbackOption, List.Forall₂ CallbackOption.Spells given options ∧
    (given.filterMap CallbackOption.error?).length ≤ 1 ∧
      c.onSuccess = (given.filterMap CallbackOption.success?).getLast? ∧
        c.onError = (given.filterMap CallbackOption.error?).head?

theorem ofAttributes_eq_ok_iff {attributes : List Attribute} (hlists : AreLists attributes) (c : Callbacks) :
    ofAttributes attributes = .ok c ↔ c.AreGivenBy (optionsOf attributes) := by
  have hparts := foldlM_ofAttribute_parts hlists {}
  have hread := foldlM_readPart_eq_ok_iff takes_step (optionsOf attributes) {} c
  have hok : ofAttributes attributes = .ok c ↔ (optionsOf attributes).foldlM (readPart step) {} = .ok c := by
    rw [← hparts]
    exact mapError_eq_ok_iff.symm
  rw [hok, hread]
  refine exists_congr fun given => and_congr Iff.rfl (foldlM_give?_eq_some_iff.trans ?_)
  rw [Option.or_none]
  rfl

/-- **Callbacks do not depend on how their options are split over attributes.** One attribute can hold the options of
all of them, and whichever one does gives the same callbacks or the same error; only where an option breaks off at the
end of its attribute may the error read differently. There are callbacks exactly if every option is one of the three
with a text and one error callback is given at most. The success callback is then the one given last, and the error
callback has the arity of its name. -/
theorem ofAttributes_merged {attributes : List Attribute} (hlists : AreLists attributes) :
    (∃ tokens, optionParts tokens = optionsOf attributes) ∧
      (∀ tokens, optionParts tokens = optionsOf attributes →
        (ofAttributes attributes).mapError DeriveError.beforeComma =
          (ofAttributes [⟨some "validation", .list tokens⟩]).mapError DeriveError.beforeComma) ∧
        ∀ c, ofAttributes attributes = .ok c ↔ c.AreGivenBy (optionsOf attributes) := by
  refine ⟨⟨joinParts (optionsOf attributes), optionParts_joinParts ?_⟩, ?_, ofAttributes_eq_ok_iff hlists⟩
  · intro p hp t ht
    obtain ⟨a, -, hp⟩ := List.mem_flatMap.1 hp
    split at hp
    · split at hp
      · exact isComma_of_mem_optionParts hp ht
      · cases hp
    · cases hp
  · intro tokens htokens
    have hone : optionsOf [⟨some "validation", .list tokens⟩] = optionParts tokens := by
      simp [optionsOf]
    have hlist : AreLists [⟨some "validation", .list tokens⟩] := by
      intro a ha _
      rw [List.mem_singleton.1 ha]
      exact ⟨tokens, rfl⟩
    refine (foldlM_ofAttribute_parts hlists {}).trans ?_
    rw [← htokens, ← hone]
    exact (foldlM_ofAttribute_parts hlist {}).symm

/-- **Callbacks spread over two attributes**: `#[validation(on_success = "a")]`, another attribute, and
`#[validation(on_error_with_errors = "b", on_success = "c",)]`. -/
def spreadAttributes : List Attribute :=
  [⟨some "validation", .list [.word "on_success", .mark '=' false, .literal "\"a\""]⟩, ⟨some "derive", .value⟩,
    ⟨some "validation", .list [.word "on_error_with_errors", .mark '=' false, .literal "\"b\"", .mark ',' false,
      .word "on_success", .mark '=' false, .literal "\"c\"", .mark ',' false]⟩]

/-- **The same options in one attribute.** -/
def mergedTokens : List Token :=
  [.word "on_success", .mark '=' false, .literal "\"a\"", .mark ',' false, .word "on_error_with_errors",
    .mark '=' false, .literal "\"b\"", .mark ',' false, .word "on_success", .mark '=' false, .literal "\"c\""]

theorem ofAttributes_merged_spread :
    AreLists spreadAttributes ∧ optionParts mergedTokens = optionsOf spreadAttributes ∧
      (ofAttributes spreadAttributes).mapError DeriveError.beforeComma =
        (ofAttributes [⟨some "validation", .list mergedTokens⟩]).mapError DeriveError.beforeComma ∧
      AreGivenBy ⟨some "c", some ⟨"b", .withErrors⟩⟩ (optionsOf spreadAttributes) := by
  have hlists : AreLists spreadAttributes := by
    simp [AreLists, spreadAttributes]
  have htokens : optionParts mergedTokens = optionsOf spreadAttributes := by
    simp [optionParts, optionsOf, mergedTokens, spreadAttributes, isComma]
  obtain ⟨-, hsame, hok⟩ := ofAttributes_merged hlists
  exact ⟨hlists, htokens, hsame mergedTokens htokens, (hok _).1 rfl⟩

/-- **An option that breaks off** at the end of its attribute: `#[validation(on_success =)]` and
`#[validation(on_error = "b")]`. -/
def brokenOffAttributes : List Attribute :=
  [⟨some "validation", .list [.word "on_success", .mark '=' false]⟩,
    ⟨some "validation", .list [.word "on_error", .mark '=' false, .literal "\"b\""]⟩]

/-- **The same options in one attribute**, where a comma follows the broken one. -/
def brokenOffTogether : Attribute :=
  ⟨some "validation", .list [.word "on_success", .mark '=' false, .mark ',' false, .word "on_error", .mark '=' false,
    .literal "\"b\""]⟩

/-- The options are the same, and the errors are not. -/
theorem ofAttributes_brokenOff :
    optionsOf brokenOffAttributes = optionsOf [brokenOffTogether] ∧
      (ofAttributes brokenOffAttributes).mapError DeriveError.message =
        .error "unexpected end of input, expected string literal" ∧
      (ofAttributes [brokenOffTogether]).mapError DeriveError.message = .error "expected string literal" := by
  refine ⟨?_, rfl, rfl⟩
  simp [optionParts, optionsOf, brokenOffAttributes, brokenOffTogether, isComma]

end Callbacks

end FormWiring
