import FormWiring.Regex.Parser

/-!
# Email addresses

An address is what one fixed pattern is found in: characters of an ASCII set, an at sign, and labels between dots, each
a letter or digit and, after up to 61 letters, digits and dashes, another one.
-/

set_option autoImplicit false

namespace FormWiring.Check

/-- **Text of the pattern** of an address. -/
def emailText : String :=
  "^[a-zA-Z0-9.!#$%&'*+/=?^_\x60\x7b|\x7d~-]+" ++
    "@[a-zA-Z0-9](?:[a-zA-Z0-9-]\x7b0,61\x7d[a-zA-Z0-9])?" ++
    "(?:\\.[a-zA-Z0-9](?:[a-zA-Z0-9-]\x7b0,61\x7d[a-zA-Z0-9])?)*$"

/-- **Pattern of an address**, if the text is one. -/
def emailPattern? : Option Regex.Pattern :=
  Regex.Pattern.ofText? emailText

/-- **Email address.** -/
def isEmail (cs : List Char) : Bool :=
  emailPattern?.any (·.isFoundIn cs)

end FormWiring.Check
