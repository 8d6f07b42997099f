import FormWiring.Validator
import Mathlib.Data.List.TakeWhile

/-!
# What a required flag means

A validator with a required flag looks at its text without the blanks around it, and at none of a blank text. So the
flag decides about blank texts and about nothing else, and blanks at the ends of a text decide nothing, whatever the
validator tests and whatever its parameters are worth.

Main definition: `Text.SameWithin`. Main statement: `Validator.required_has_one_meaning`.
-/

set_option autoImplicit false

namespace FormWiring

namespace Text

/-! ## Blanks at the ends -/

/-- **A text pads another** with blanks before and after it. -/
def Pads (core cs : List Char) : Prop :=
  ∃ front back, cs = front ++ core ++ back ∧ front.all isBlank = true ∧ back.all isBlank = true

/-- **Same but for blanks at the ends.** -/
def SameWithin (a b : List Char) : Prop :=
  ∃ core, Pads core a ∧ Pads core b

variable {a b core cs front back : List Char}

theorem dropWhile_eq_nil_of_blank (h : cs.all isBlank = true) : cs.dropWhile isBlank = [] := by
  rw [List.dropWhile_eq_nil_iff]
  exact List.all_eq_true.1 h

theorem trimLeft_blank_append (h : front.all isBlank = true) : trimLeft (front ++ cs) = trimLeft cs := by
  unfold trimLeft
  rw [List.dropWhile_append, dropWhile_eq_nil_of_blank h]
  rfl

theorem trimRight_append_blank (h : back.all isBlank = true) : trimRight (cs ++ back) = trimRight cs := by
  have hback : back.reverse.all isBlank = true := by rwa [List.all_reverse]
  unfold trimRight
  rw [List.reverse_append, List.dropWhile_append, dropWhile_eq_nil_of_blank hback]
  rfl

theorem Pads.trimChars_eq (h : Pads core cs) : trimChars cs = trimChars core := by
  obtain ⟨front, back, rfl, hfront, hback⟩ := h
  unfold trimChars
  rw [List.append_assoc, trimLeft_blank_append hfront]
  unfold trimLeft
  rw [List.dropWhile_append]
  -- of a text of blanks nothing is left from the left, and the blanks behind it go the same way
  by_cases hcore : core.dropWhile isBlank = []
  · rw [hcore, dropWhile_eq_nil_of_blank hback]
    rfl
  · rw [if_neg (by simpa using hcore), trimRight_append_blank hback]

theorem pads_trimChars (cs : List Char) : Pads (trimChars cs) cs := by
  refine ⟨cs.takeWhile isBlank, ((trimLeft cs).reverse.takeWhile isBlank).reverse, ?_, List.all_takeWhile, ?_⟩
  · have hright : trimChars cs ++ ((trimLeft cs).reverse.takeWhile isBlank).reverse = trimLeft cs := by
      unfold trimChars trimRight
      rw [← List.reverse_append, List.takeWhile_append_dropWhile, List.reverse_reverse]
    rw [List.append_assoc, hright]
    exact List.takeWhile_append_dropWhile.symm
  · rw [List.all_reverse]
    exact List.all_takeWhile

theorem SameWithin.trimChars_eq (h : SameWithin a b) : trimChars a = trimChars b := by
  obtain ⟨core, ha, hb⟩ := h
  rw [ha.trimChars_eq, hb.trimChars_eq]

theorem isBlankText_iff {s : String} : isBlankText s = true ↔ trimChars s.toList = [] := by
  unfold isBlankText
  constructor
  · intro h
    have hpads : Pads [] s.toList := ⟨s.toList, [], by simp, h, rfl⟩
    exact hpads.trimChars_eq
  · intro h
    obtain ⟨front, back, hs, hfront, hback⟩ := pads_trimChars s.toList
    rw [hs, h, List.append_nil, List.all_append, hfront, hback]
    rfl

end Text

/-! ## Checks -/

namespace FieldCheck

variable {test : TextTest} {required : Bool} {value : String}

/-- A blank value is accepted unless it is required. -/
theorem accepts_tested_of_blank (h : Text.isBlankText value = true) :
    (tested test required).accepts value = !required := by
  rw [accepts, acceptsTrimmed, Text.isBlankText_iff.1 h]
  rfl

/-- Any other value is put to the test, without the blanks around it. -/
theorem accepts_tested_of_not_blank (h : Text.isBlankText value = false) :
    (tested test required).accepts value = test.accepts (Text.trimChars value.toList) := by
  have hne : Text.trimChars value.toList ≠ [] := fun hnil => by
    rw [Text.isBlankText_iff.2 hnil] at h
    cases h
  rw [accepts, acceptsTrimmed, if_neg (by simpa using hne)]

end FieldCheck

/-! ## Validators -/

namespace TextTest

/-- **Kind of the validators** that make a test. -/
def kind : TextTest → ValidatorKind
  | email => .email
  | onlyNumber => .onlyNumber
  | cpf => .cpf
  | cnpj => .cnpj
  | isbn => .isbn
  | creditCard => .creditCard
  | ipv4 => .ipv4
  | ipv6 => .ipv6
  | url => .url
  | pattern _ => .pattern
  | length .. => .length
  | numericLimit .. => .numericLimit
  | pastDate .. => .pastDate
  | futureDate .. => .futureDate

/-- **Arguments of a validator** that makes a test, with its two flags. -/
def arguments (dismiss required : Bool) : TextTest → List Validator.Argument
  | pattern regex => [.text regex, .bool dismiss, .bool required]
  | length min max => [.int min, .int max, .bool dismiss, .bool required]
  | numericLimit min max => [.bool dismiss, .text min, .text max, .bool required]
  | pastDate dateFormat limitDate | futureDate dateFormat limitDate =>
    [.text dateFormat, .text limitDate, .bool dismiss, .bool required]
  | _ => [.bool dismiss, .bool required]

end TextTest

namespace Validator

theorem build?_arguments (test : TextTest) (name message : String) (dismiss required : Bool) :
    build? test.kind [name] message (test.arguments dismiss required) =
      some (single ⟨name, message, dismiss⟩ (.tested test required)) := by
  cases test <;> rfl

theorem accepts_single (s : Screen) (b : Binding) (check : FieldCheck) :
    (single b check).accepts s = check.accepts (s.text b.input) := by
  rw [accepts, reports, List.all_cons, List.all_nil, Bool.and_true]

/-- **A required flag has one meaning**, whatever a validator tests: of a blank text it is the verdict that is refused,
and of any other text the verdict is the same with the flag and without it, and with blanks more or fewer at the ends. -/
theorem required_has_one_meaning (test : TextTest) (name message : String) (dismiss : Bool) :
    ∃ v : Bool → Validator,
      (∀ required, build? test.kind [name] message (test.arguments dismiss required) = some (v required)) ∧
      ∀ s : Screen,
        (Text.isBlankText (s.text name) = true → ∀ required, (v required).accepts s = !required) ∧
        (Text.isBlankText (s.text name) = false →
          ∀ s' : Screen, Text.SameWithin (s.text name).toList (s'.text name).toList →
            ∀ required required', (v required').accepts s' = (v required).accepts s) := by
  refine ⟨fun required => single ⟨name, message, dismiss⟩ (.tested test required),
    build?_arguments test name message dismiss, fun s => ⟨?_, ?_⟩⟩
  · intro hblank required
    rw [accepts_single, FieldCheck.accepts_tested_of_blank hblank]
  · intro hblank s' hsame required required'
    have htrimmed := hsame.trimChars_eq
    -- the other text has something between its blanks too
    have hblank' : Text.isBlankText (s'.text name) = false := by
      rw [← Bool.not_eq_true, Text.isBlankText_iff, ← htrimmed, ← Text.isBlankText_iff, hblank]
      exact Bool.false_ne_true
    rw [accepts_single, accepts_single, FieldCheck.accepts_tested_of_not_blank hblank,
      FieldCheck.accepts_tested_of_not_blank hblank', htrimmed]

/-- A limit that is no date leaves the flag its meaning. -/
theorem required_has_one_meaning_pastDate :
    ∃ v : Bool → Validator,
      (∀ required, build? .pastDate ["day"] "too early"
        [.text "%d/%m/%Y", .text "soon", .bool true, .bool required] = some (v required)) ∧
      (v true).accepts (({} : Screen).enter "day" " ") = false ∧
      (v false).accepts (({} : Screen).enter "day" " ") = true ∧
      (v true).accepts (({} : Screen).enter "day" " 01/01/2000 ") =
        (v false).accepts (({} : Screen).enter "day" "01/01/2000") := by
  obtain ⟨v, hbuild, hverdict⟩ :=
    required_has_one_meaning (.pastDate "%d/%m/%Y" "soon") "day" "too early" true
  have hblank : Text.isBlankText ((({} : Screen).enter "day" " ").text "day") = true := by decide
  have hday : Text.isBlankText ((({} : Screen).enter "day" "01/01/2000").text "day") = false := by decide
  have hsame : Text.SameWithin ((({} : Screen).enter "day" "01/01/2000").text "day").toList
      ((({} : Screen).enter "day" " 01/01/2000 ").text "day").toList :=
    ⟨"01/01/2000".toList, ⟨[], [], by decide, rfl, rfl⟩, ⟨[' '], [' '], by decide, rfl, rfl⟩⟩
  exact ⟨v, hbuild, (hverdict _).1 hblank true, (hverdict _).1 hblank false,
    (hverdict _).2 hday _ hsame false true⟩

end Validator

end FormWiring
