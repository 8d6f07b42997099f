/-!
# Blank characters

Names, values and settings are compared after the blanks at their two ends are dropped. A blank is a
character of the `White_Space` property; the set is closed and small, so it is written out.

Main definitions: `isBlank`, `trim`, `isBlankText`.
-/

set_option autoImplicit false

namespace FormWiring.Text

/-! ## The property -/

/-- **Blank characters.** The characters of the `White_Space` property. -/
def isBlank (c : Char) : Bool :=
  let n := c.toNat
  (0x09 ≤ n && n ≤ 0x0D) || n == 0x20 || n == 0x85 || n == 0xA0 || n == 0x1680 ||
    (0x2000 ≤ n && n ≤ 0x200A) || n == 0x2028 || n == 0x2029 || n == 0x202F || n == 0x205F ||
    n == 0x3000

/-! ## Trimming -/

/-- **Left trim** of a list of characters. -/
def trimLeft (cs : List Char) : List Char :=
  cs.dropWhile isBlank

/-- **Right trim** of a list of characters. -/
def trimRight (cs : List Char) : List Char :=
  (cs.reverse.dropWhile isBlank).reverse

/-- **Trim** of a list of characters: no blank is left at either end. -/
def trimChars (cs : List Char) : List Char :=
  trimRight (trimLeft cs)

/-- **Trim** of a text. -/
def trim (s : String) : String :=
  String.ofList (trimChars s.toList)

/-- **Blank text.** Empty or made of blanks only. -/
def isBlankText (s : String) : Bool :=
  s.toList.all isBlank

@[simp] theorem trimLeft_nil : trimLeft [] = [] := rfl

@[simp] theorem trimRight_nil : trimRight [] = [] := rfl

@[simp] theorem trimChars_nil : trimChars [] = [] := rfl

@[simp] theorem toList_trim (s : String) : (trim s).toList = trimChars s.toList := by
  simp [trim]

end FormWiring.Text
