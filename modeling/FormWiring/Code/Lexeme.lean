/-!
# Lexemes

Code as a flat list of lexemes: words, marks, literals and the two ends of groups. A mark may be joined to
the mark after it, as the two colons of a path are. The text of a list puts one blank between lexemes, except
after a joined mark and inside the ends of round and square groups.

Main definitions: `Lexeme`, `Lexeme.textChars`.
-/

set_option autoImplicit false

namespace FormWiring.Code

/-! ## Types -/

/-- **Delimiters** of a group. -/
inductive Delimiter where
  | round
  | square
  | curly
  deriving DecidableEq, Repr, Inhabited

/-- **Opening character.** -/
def Delimiter.opener : Delimiter → Char
  | .round => '('
  | .square => '['
  | .curly => '\x7b'

/-- **Closing character.** -/
def Delimiter.closer : Delimiter → Char
  | .round => ')'
  | .square => ']'
  | .curly => '\x7d'

/-- **Lexemes.** -/
inductive Lexeme where
  /-- A name or a keyword. -/
  | word (text : String)
  /-- One mark, joined to the next one or not. -/
  | mark (c : Char) (joined : Bool)
  | literal (text : String)
  | opening (d : Delimiter)
  | closing (d : Delimiter)
  deriving DecidableEq, Repr, Inhabited

namespace Lexeme

/-! ## Text -/

/-- **Characters** of one lexeme. -/
def chars : Lexeme → List Char
  | word text => text.toList
  | mark c _ => [c]
  | literal text => text.toList
  | opening d => [d.opener]
  | closing d => [d.closer]

/-- **No blank** between two neighbours. -/
def isGlued : Lexeme → Lexeme → Bool
  | mark _ true, _ => true
  | opening .round, _ | opening .square, _ => true
  | _, closing .round | _, closing .square => true
  | _, _ => false

/-- **Text** of a list of lexemes, as characters. -/
def textChars : List Lexeme → List Char
  | [] => []
  | [a] => a.chars
  | a :: b :: rest => a.chars ++ ((if a.isGlued b then [] else [' ']) ++ textChars (b :: rest))

/-- **Text** of a list of lexemes. -/
def text (code : List Lexeme) : String :=
  String.ofList (textChars code)

/-! ## Building -/

/-- **Marks written together**, the last one free. -/
def marks : List Char → List Lexeme
  | [] => []
  | [c] => [mark c false]
  | c :: rest => mark c true :: marks rest

/-- **Group** around a list. -/
def group (d : Delimiter) (inside : List Lexeme) : List Lexeme :=
  opening d :: (inside ++ [closing d])

/-- **List with commas** between its parts. -/
def commaSeparated : List (List Lexeme) → List Lexeme
  | [] => []
  | [part] => part
  | part :: rest => part ++ mark ',' false :: commaSeparated rest

/-- **Path from the root** made of plain names. -/
def rootPath : List String → List Lexeme
  | [] => []
  | name :: rest => marks [':', ':'] ++ word name :: rootPath rest

end Lexeme

end FormWiring.Code
