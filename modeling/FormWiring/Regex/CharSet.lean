import FormWiring.Text.Blank
import FormWiring.Text.CaseFold
import FormWiring.Text.Category
import FormWiring.Text.Script

/-!
# Sets of characters

What one character of a pattern may be: ranges, classes of characters and what is built from them. A set is a
description; `CharSet.contains` decides membership. A plain set is about ASCII only, as patterns are when they
ask for it.
-/

set_option autoImplicit false

namespace FormWiring.Regex

/-! ## Sets -/

/-- **Classes of all characters** that have a name of their own. -/
inductive CharClass where
  | digit
  | blank
  | word
  | category (kinds : List Text.Category)
  | alphabetic
  | lowercase
  | uppercase
  | assigned
  deriving Repr

/-- **Sets of characters.** -/
inductive CharSet where
  | empty
  | range (low high : Nat)
  | ofClass (k : CharClass)
  | union (a b : CharSet)
  | inter (a b : CharSet)
  | diff (a b : CharSet)
  | complement (a : CharSet)
  /-- The characters that differ in case only from one in the set. -/
  | foldCase (a : CharSet)
  /-- The same for ASCII letters only. -/
  | foldPlain (a : CharSet)
  deriving Repr

/-- **Membership in a class.** -/
def CharClass.contains (c : Char) : CharClass → Bool
  | digit => Text.isDecimalDigit c
  | blank => Text.isBlank c
  | word => Text.isWordChar c
  | category kinds => kinds.contains (Text.category c)
  | alphabetic =>
    let k := Text.category c
    k.isLetter || k == .letterNumber || (Text.isWordChar c && k.isMark)
  | lowercase => Text.isLowercase c
  | uppercase => Text.isUppercase c
  | assigned => Text.category c != .unassigned

namespace CharSet

/-- **Other case** of an ASCII letter; other characters have none. -/
def otherCase (c : Char) : Char :=
  if c.isLower then c.toUpper else c.toLower

/-- **Membership.** -/
def contains : CharSet → Char → Bool
  | empty, _ => false
  | range low high, c => low ≤ c.toNat && c.toNat ≤ high
  | ofClass k, c => k.contains c
  | union a b, c => a.contains c || b.contains c
  | inter a b, c => a.contains c && b.contains c
  | diff a b, c => a.contains c && !b.contains c
  | complement a, c => !a.contains c
  | foldCase a, c => (Text.caseOrbit c).any fun d => a.contains d
  | foldPlain a, c => a.contains c || a.contains (otherCase c)

/-- **One character.** -/
def one (c : Char) : CharSet :=
  range c.toNat c.toNat

/-- **Union of a list.** -/
def unions : List CharSet → CharSet
  | [] => empty
  | [a] => a
  | a :: rest => union a (unions rest)

/-- **Union of ranges.** -/
def ofRanges (ranges : List (Nat × Nat)) : CharSet :=
  unions (ranges.map fun (low, high) => range low high)

/-- **No byte beyond ASCII** is in the set. -/
def isPlain (a : CharSet) : Bool :=
  (List.range 128).all fun n => !a.contains (Char.ofNat (128 + n))

/-- **Number of ranges**, about. -/
def rangeCount : CharSet → Nat
  | empty => 0
  | range _ _ => 1
  | ofClass .digit => 64
  | ofClass .blank => 10
  | ofClass _ => 750
  | union a b | inter a b | diff a b => a.rangeCount + b.rangeCount
  | complement a => a.rangeCount + 1
  | foldCase a => 2 * a.rangeCount
  | foldPlain a => 2 * a.rangeCount

end CharSet

end FormWiring.Regex
