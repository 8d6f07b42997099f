import FormWiring.Regex.CharSet

/-!
# Named properties

The names under which patterns ask for characters: general categories by short or long name, a few properties,
and scripts. Names are compared without case, blanks, dashes and underscores.

Main definition: `CharSet.ofProperty?`.
-/

set_option autoImplicit false

namespace FormWiring.Regex

open Text (Category)

/-- **Name without case, blanks, dashes and underscores.** -/
def plainName (cs : List Char) : List Char :=
  (cs.filter fun c => c != ' ' && c != '-' && c != '_' && c.toNat < 128).map Char.toLower

/-- **Name in the form that is compared.** A leading `is` says nothing, except in the name `isc`. -/
def normalName (cs : List Char) : String :=
  String.ofList
    (match cs with
      | i :: s :: rest =>
        if i.toLower == 'i' && s.toLower == 's' then
          let name := plainName rest
          if name == ['c'] then ['i', 's', 'c'] else name
        else plainName cs
      | _ => plainName cs)

/-- **Categories of a name**, if it is one. -/
def categoriesOf? : String → Option (List Category)
  | "l" | "letter" =>
    some [.uppercaseLetter, .lowercaseLetter, .titlecaseLetter, .modifierLetter, .otherLetter]
  | "lc" | "casedletter" => some [.uppercaseLetter, .lowercaseLetter, .titlecaseLetter]
  | "lu" | "uppercaseletter" => some [.uppercaseLetter]
  | "ll" | "lowercaseletter" => some [.lowercaseLetter]
  | "lt" | "titlecaseletter" => some [.titlecaseLetter]
  | "lm" | "modifierletter" => some [.modifierLetter]
  | "lo" | "otherletter" => some [.otherLetter]
  | "m" | "mark" | "combiningmark" => some [.nonspacingMark, .spacingMark, .enclosingMark]
  | "mn" | "nonspacingmark" => some [.nonspacingMark]
  | "mc" | "spacingmark" => some [.spacingMark]
  | "me" | "enclosingmark" => some [.enclosingMark]
  | "n" | "number" => some [.decimalNumber, .letterNumber, .otherNumber]
  | "nd" | "decimalnumber" | "digit" => some [.decimalNumber]
  | "nl" | "letternumber" => some [.letterNumber]
  | "no" | "othernumber" => some [.otherNumber]
  | "p" | "punctuation" | "punct" =>
    some [.connectorPunctuation, .dashPunctuation, .openPunctuation, .closePunctuation,
      .initialPunctuation, .finalPunctuation, .otherPunctuation]
  | "pc" | "connectorpunctuation" => some [.connectorPunctuation]
  | "pd" | "dashpunctuation" => some [.dashPunctuation]
  | "ps" | "openpunctuation" => some [.openPunctuation]
  | "pe" | "closepunctuation" => some [.closePunctuation]
  | "pi" | "initialpunctuation" => some [.initialPunctuation]
  | "pf" | "finalpunctuation" => some [.finalPunctuation]
  | "po" | "otherpunctuation" => some [.otherPunctuation]
  | "s" | "symbol" => some [.mathSymbol, .currencySymbol, .modifierSymbol, .otherSymbol]
  | "sm" | "mathsymbol" => some [.mathSymbol]
  | "sc" | "currencysymbol" => some [.currencySymbol]
  | "sk" | "modifiersymbol" => some [.modifierSymbol]
  | "so" | "othersymbol" => some [.otherSymbol]
  | "z" | "separator" => some [.spaceSeparator, .lineSeparator, .paragraphSeparator]
  | "zs" | "spaceseparator" => some [.spaceSeparator]
  | "zl" | "lineseparator" => some [.lineSeparator]
  | "zp" | "paragraphseparator" => some [.paragraphSeparator]
  | "c" | "other" => some [.control, .format, .surrogate, .privateUse, .unassigned]
  | "cc" | "control" | "cntrl" => some [.control]
  | "cf" | "format" => some [.format]
  | "cs" | "surrogate" => some [.surrogate]
  | "co" | "privateuse" => some [.privateUse]
  | "cn" | "unassigned" => some [.unassigned]
  | _ => none

namespace CharSet

/-- **All characters.** -/
def all : CharSet := range 0 0x10FFFF

/-- **Characters of a general category**, or of one of three wider names. -/
def ofCategory? (name : String) : Option CharSet :=
  match name with
  | "any" => some all
  | "ascii" => some (range 0 0x7F)
  | "assigned" => some (ofClass .assigned)
  | _ => (categoriesOf? name).map fun kinds => ofClass (.category kinds)

/-- **Characters of a script.** -/
def ofScript? (name : String) : Option CharSet :=
  (Text.scriptRanges? name).map ofRanges

/-- **Characters of a name** that stands alone. -/
def ofName? (name : String) : Option CharSet :=
  match name with
  | "alphabetic" | "alpha" => some (ofClass .alphabetic)
  | "lowercase" | "lower" => some (ofClass .lowercase)
  | "uppercase" | "upper" => some (ofClass .uppercase)
  | "whitespace" | "wspace" | "space" => some (ofClass .blank)
  | _ => ofCategory? name <|> ofScript? name

/-- **Characters of a property with a value.** -/
def ofValue? (property value : String) : Option CharSet :=
  match property with
  | "gc" | "generalcategory" => ofCategory? value
  | "sc" | "script" | "scx" | "scriptextensions" => ofScript? value
  | _ => none

/-- **Property as written**: a name, or a name and a value with one of three marks between them. -/
def ofProperty? (written : List Char) : Option CharSet :=
  let isMark := fun c : Char => c == ':' || c == '='
  let before := written.takeWhile (!isMark ·)
  match written.dropWhile (!isMark ·) with
  | [] => ofName? (normalName written)
  | _ :: value =>
    match before.getLast? with
    | some '!' => (ofValue? (normalName before.dropLast) (normalName value)).map complement
    | _ => ofValue? (normalName before) (normalName value)

end CharSet

end FormWiring.Regex
