import FormWiring.Regex.Parser

/-!
# Web addresses

An address is what one fixed pattern is found in: a scheme in any case, a colon and two slashes, one character that may
start a host, then anything but blanks.
-/

set_option autoImplicit false

namespace FormWiring.Check

/-- **Text of the pattern** of a web address. -/
def urlText : String :=
  "^(?i)(https?|ftp)://[^\\s/$.?#][^\\s]*$"

/-- **Pattern of a web address**, if the text is one. -/
def urlPattern? : Option Regex.Pattern :=
  Regex.Pattern.ofText? urlText

/-- **Web address.** -/
def isUrl (cs : List Char) : Bool :=
  urlPattern?.any (·.isFoundIn cs)

end FormWiring.Check
