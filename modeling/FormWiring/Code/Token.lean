import FormWiring.Code.Lexer

/-!
# Token trees

Lexemes with their groups nested. A reader consumes token trees from the front; `flatten` gives the lexemes
back.
-/

set_option autoImplicit false

namespace FormWiring.Code

/-! ## Trees -/

/-- **Token trees.** -/
inductive Token where
  | word (text : String)
  | mark (c : Char) (joined : Bool)
  | literal (text : String)
  | group (d : Delimiter) (inside : List Token)
  deriving Repr, Inhabited

namespace Token

/-- **Nesting of lexemes** up to the end of the group that is open, or of the list. -/
def nest : Nat → List Lexeme → List Token × List Lexeme
  | 0, rest => ([], rest)
  | _, [] => ([], [])
  | fuel + 1, lexeme :: rest =>
    match lexeme with
    | .closing _ => ([], rest)
    | .opening d =>
      let (inside, rest) := nest fuel rest
      let (after, rest) := nest fuel rest
      (.group d inside :: after, rest)
    | .word text =>
      let (after, rest) := nest fuel rest
      (.word text :: after, rest)
    | .mark c joined =>
      let (after, rest) := nest fuel rest
      (.mark c joined :: after, rest)
    | .literal text =>
      let (after, rest) := nest fuel rest
      (.literal text :: after, rest)

/-- **Token trees of a text**, if it is code. -/
def read? (s : String) : Option (List Token) :=
  (scan? s).map fun lexemes => (nest (lexemes.length + 1) lexemes).1

mutual

/-- **Lexemes of a tree.** -/
def flatten : Token → List Lexeme
  | word text => [.word text]
  | mark c joined => [.mark c joined]
  | literal text => [.literal text]
  | group d inside => .opening d :: (flattenAll inside ++ [.closing d])

/-- **Lexemes of trees** in a row. -/
def flattenAll : List Token → List Lexeme
  | [] => []
  | t :: ts => t.flatten ++ flattenAll ts

end

end Token

/-! ## Readers -/

/-- **Reader**: consumes tokens from the front and gives a value, or fails. -/
abbrev Reader (α : Type) : Type :=
  StateT (List Token) Option α

namespace Reader

/-- **Failure.** -/
def fail {α : Type} : Reader α :=
  fun _ => none

/-- **Tokens left.** -/
def left : Reader (List Token) :=
  get

/-- **End of the tokens.** -/
def atEnd : Reader Bool := do
  pure (← left).isEmpty

/-- **One token**, whatever it is. -/
def any : Reader Token := fun
  | t :: rest => some (t, rest)
  | [] => none

/-- **Value of a reader that uses up its tokens.** -/
def run? {α : Type} (r : Reader α) (tokens : List Token) : Option α :=
  match r tokens with
  | some (a, []) => some a
  | _ => none

/-- **Reader inside a group**, which must use it up. -/
def within {α : Type} (d : Delimiter) (r : Reader α) : Reader α := fun
  | .group g inside :: rest => if g = d then (r.run? inside).map (·, rest) else none
  | _ => none

end Reader

/-- **Marks in a row** at the front: all but the last joined to the next. -/
def startsWithMarks : List Char → List Token → Bool
  | [], _ => true
  | [c], .mark m _ :: _ => c == m
  | c :: more, .mark m joined :: rest => c == m && joined && startsWithMarks more rest
  | _, _ => false

/-- **Keyword at the front.** -/
def startsWithWord (text : String) : List Token → Bool
  | .word w :: _ => w == text
  | _ => false

namespace Reader

/-- **Marks** that must be next. -/
def marks (cs : List Char) : Reader (List Lexeme) := fun tokens =>
  if startsWithMarks cs tokens then some (Lexeme.marks cs, tokens.drop cs.length) else none

/-- **Marks that may be next.** -/
def marks? (cs : List Char) : Reader (Option (List Lexeme)) := fun tokens =>
  if startsWithMarks cs tokens then some (some (Lexeme.marks cs), tokens.drop cs.length)
  else some (none, tokens)

/-- **Keyword** that must be next. -/
def keyword (text : String) : Reader (List Lexeme) := fun tokens =>
  if startsWithWord text tokens then some ([.word text], tokens.drop 1) else none

/-- **Keyword that may be next.** -/
def keyword? (text : String) : Reader (Option (List Lexeme)) := fun tokens =>
  if startsWithWord text tokens then some (some [.word text], tokens.drop 1) else some (none, tokens)

end Reader

/-! ## Names -/

/-- **Keywords**, which are no names. -/
def keywords : List String :=
  ["_", "abstract", "as", "async", "await", "become", "box", "break", "const", "continue", "crate", "do",
    "dyn", "else", "enum", "extern", "false", "final", "fn", "for", "if", "impl", "in", "let", "loop",
    "macro", "match", "mod", "move", "mut", "override", "priv", "pub", "ref", "return", "Self", "self",
    "static", "struct", "super", "trait", "true", "try", "type", "typeof", "unsafe", "unsized", "use",
    "virtual", "where", "while", "yield"]

/-- **Name at the front**: a word that is no keyword. -/
def startsWithName : List Token → Bool
  | .word w :: _ => !keywords.contains w
  | _ => false

/-- **Name** that must be next. -/
def Reader.name : Reader String := fun
  | .word w :: rest => if keywords.contains w then none else some (w, rest)
  | _ => none

/-- **Word** that must be next, keywords included. -/
def Reader.anyWord : Reader String := fun
  | .word w :: rest => some (w, rest)
  | _ => none

/-- **Lifetime at the front.** -/
def startsWithLifetime : List Token → Bool
  | .mark '\'' true :: .word _ :: _ => true
  | _ => false

/-- **Lifetime** that must be next. -/
def Reader.lifetime : Reader (List Lexeme) := fun
  | .mark '\'' true :: .word w :: rest => some ([.mark '\'' true, .word w], rest)
  | _ => none

/-- **Identifier of a text** that is exactly one name, with blanks and comments around it dropped. -/
def identifier? (s : String) : Option String :=
  (Token.read? s).bind (Reader.name.run? ·)

end FormWiring.Code
