import FormWiring.Check.Address
import FormWiring.Check.Document
import FormWiring.Check.Email
import FormWiring.Check.Number
import FormWiring.Check.Url
import FormWiring.Calendar.Reader
import FormWiring.Regex.Parser
import FormWiring.Rule

/-!
# Checks

What a validator asks of one text. Most checks see the text without the blanks around it and have one meaning
of an optional value: a blank text passes unless the value is required. A required value and a password are
looked at as they are.
-/

set_option autoImplicit false

namespace FormWiring

open Calendar (Date Item)

/-! ## Tests -/

/-- **Tests** of a text that is not blank, without the blanks around it. -/
inductive TextTest where
  | email
  | onlyNumber
  | cpf
  | cnpj
  | isbn
  | creditCard
  | ipv4
  | ipv6
  | url
  | pattern (regex : String)
  | length (min max : Int64)
  | numericLimit (min max : String)
  /-- Dates on or after a limit. -/
  | pastDate (dateFormat limitDate : String)
  /-- Dates on or before a limit. -/
  | futureDate (dateFormat limitDate : String)
  deriving DecidableEq, Repr

/-- **Pattern for a whole value**: the pattern's text is put between the anchors as it is. -/
def wholePattern? (regex : String) : Option Regex.Pattern :=
  Regex.Pattern.ofText? ("^(?:" ++ regex ++ ")$")

/-- **Match of a pattern's text**; a text that is no pattern matches nothing. -/
def matchesPattern (regex : String) (cs : List Char) : Bool :=
  (wholePattern? regex).any (·.isFoundIn cs)

/-- **Bound of a numeric limit**: a finite number. -/
def numericBound? (s : String) : Option Int :=
  Check.finiteOfText? (Text.trimChars s.toList)

/-- **Value within bounds.** Bounds that are no numbers admit nothing. -/
def isWithin (min max : String) (cs : List Char) : Bool :=
  match numericBound? min, numericBound? max, Check.finiteOfText? cs with
  | some low, some high, some value => low ≤ value && value ≤ high
  | _, _, _ => false

/-- **Limit date** in a format. -/
def limitDate? (dateFormat limitDate : String) : Option Date :=
  Date.ofText? (Item.ofFormat dateFormat) (Text.trim limitDate)

/-- **Date that compares** with a limit as asked. -/
def comparesDate (holds : Date → Date → Bool) (dateFormat limitDate : String) (cs : List Char) : Bool :=
  match Date.ofText? (Item.ofFormat dateFormat) (String.ofList (Text.trimChars cs)),
    limitDate? dateFormat limitDate with
  | some date, some limit => holds date limit
  | _, _ => false

namespace TextTest

/-- **Acceptance** of a text. -/
def accepts : TextTest → List Char → Bool
  | email, cs => Check.isEmail cs
  | onlyNumber, cs => cs.all Text.isDigit
  | cpf, cs => Check.isCpf cs
  | cnpj, cs => Check.isCnpj cs
  | isbn, cs => Check.isIsbn cs
  | creditCard, cs => Check.isCard cs
  | ipv4, cs => Check.isIpv4 cs
  | ipv6, cs => Check.isIpv6 cs
  | url, cs => Check.isUrl cs
  | pattern regex, cs => matchesPattern regex cs
  | length min max, cs =>
    min.toInt ≤ cs.length && (max.toInt == 0 || (cs.length : Int) ≤ max.toInt)
  | numericLimit min max, cs => isWithin min max cs
  | pastDate dateFormat limitDate, cs =>
    comparesDate (fun date limit => date.isNotBefore limit) dateFormat limitDate cs
  | futureDate dateFormat limitDate, cs =>
    comparesDate (fun date limit => limit.isNotBefore date) dateFormat limitDate cs

end TextTest

/-! ## Checks -/

/-- **Checks** of a text as it was entered. -/
inductive FieldCheck where
  /-- Something other than blanks. -/
  | present
  /-- A test of the text without the blanks around it. -/
  | tested (test : TextTest) (required : Bool)
  /-- At least `min` characters and, where there is one, a match of the pattern. -/
  | password (min : Int64) (regex : String)
  deriving DecidableEq, Repr

/-- **Test with an optional value**: a blank text passes unless the value is required. -/
def acceptsTrimmed (required : Bool) (test : List Char → Bool) (cs : List Char) : Bool :=
  let trimmed := Text.trimChars cs
  if trimmed.isEmpty then !required else test trimmed

/-- **Acceptance of a password.** -/
def acceptsPassword (min : Int64) (regex : String) (cs : List Char) : Bool :=
  !cs.isEmpty && min.toInt ≤ cs.length && (regex.isEmpty || matchesPattern regex cs)

namespace FieldCheck

/-- **Acceptance** of a text. -/
def accepts : FieldCheck → String → Bool
  | present, s => !(Text.trimChars s.toList).isEmpty
  | tested test required, s => acceptsTrimmed required test.accepts s.toList
  | password min regex, s => acceptsPassword min regex s.toList

end FieldCheck

/-- **Check of a rule** that stands alone. -/
def Rule.check? : Rule → Option FieldCheck
  | .required => some .present
  | .email needed => some (.tested .email needed)
  | .pattern regex needed => some (.tested (.pattern regex) needed)
  | .length min max needed => some (.tested (.length min max) needed)
  | .onlyNumber needed => some (.tested .onlyNumber needed)
  | .password min regex => some (.password min regex)
  | .cpf needed => some (.tested .cpf needed)
  | .cnpj needed => some (.tested .cnpj needed)
  | .isbn needed => some (.tested .isbn needed)
  | .creditCard needed => some (.tested .creditCard needed)
  | .numericLimit min max needed => some (.tested (.numericLimit min max) needed)
  | .ipv4 needed => some (.tested .ipv4 needed)
  | .ipv6 needed => some (.tested .ipv6 needed)
  | .url needed => some (.tested .url needed)
  | .pastDate dateFormat limitDate needed => some (.tested (.pastDate dateFormat limitDate) needed)
  | .futureDate dateFormat limitDate needed => some (.tested (.futureDate dateFormat limitDate) needed)
  | .confirmEmail | .confirmPassword | .betweenStart | .betweenLimit => none

end FormWiring
