import FormWiring.Derive.Error

/-!
# Options of attributes

An attribute holds options between commas, a comma at the end allowed. Each starts with a name; what follows
the name is for the reader of that option.
-/

set_option autoImplicit false

namespace FormWiring

open Code

/-- **Reader of options**: consumes tokens, or fails with a cause. -/
abbrev OptionReader (α : Type) : Type :=
  StateT (List Token) (Except DeriveError) α

namespace OptionReader

/-! ## Parts -/

/-- **Mark** that must be next. -/
def mark (c : Char) : OptionReader Unit := do
  let tokens ← get
  if startsWithMarks [c] tokens then set (tokens.drop 1) else throw (.expectedMark c)

/-- **Literal** that must be next, of a kind picked by `pick`. -/
def literal {α : Type} (kind : LiteralKind) (pick : LiteralValue → Option α) : OptionReader α := do
  let tokens ← get
  match leadingLiteral? tokens with
  | some (value, rest) =>
    match pick value with
    | some a =>
      set rest
      pure a
    | none => throw (.expectedLiteral kind tokens.isEmpty)
  | none => throw (.expectedLiteral kind tokens.isEmpty)

/-- **Text of a literal**, if it is one. -/
def textOf? : LiteralValue → Option String
  | .text value => some value
  | _ => none

/-- **Truth value of a literal**, if it is one. -/
def truthOf? : LiteralValue → Option Bool
  | .bool value => some value
  | _ => none

/-- **Digits of an integer literal**, if it is one. -/
def integerOf? : LiteralValue → Option String
  | .integer digits => some digits
  | _ => none

/-- **Text value** of an option. -/
def textValue : OptionReader String := do
  mark '='
  literal .text textOf?

/-- **Truth value** of an option. -/
def truthValue : OptionReader Bool := do
  mark '='
  literal .truth truthOf?

/-- **Number value** of an option, as text: a text without the blanks around it, or a number with an optional
minus. -/
def numberValue : OptionReader String := do
  mark '='
  match leadingLiteral? (← get) with
  | some (.text value, rest) =>
    set rest
    pure (Text.trim value)
  | _ =>
    let tokens ← get
    let negative := startsWithMarks ['-'] tokens
    if negative then set (tokens.drop 1)
    let digits ←
      match leadingLiteral? (← get) with
      | some (.float digits, rest) => do
        set rest
        pure digits
      | _ => literal .integer integerOf?
    pure ((if negative then "-" else "") ++ digits)

/-! ## Names and lists -/

/-- **Further names** of an option's path, and whether there was one. -/
def moreNames : Nat → OptionReader Bool
  | 0 => pure false
  | fuel + 1 => do
    let tokens ← get
    if startsWithMarks [':', ':'] tokens then
      match tokens.drop 2 with
      | .word _ :: rest =>
        set rest
        let _ ← moreNames fuel
        pure true
      | rest => throw (.expectedName rest.isEmpty)
    else
      pure false

/-- **Name of an option**, when its path is one name. Keywords are allowed. -/
def optionName : OptionReader (Option String) := do
  let tokens ← get
  let isAbsolute := startsWithMarks [':', ':'] tokens
  let tokens := if isAbsolute then tokens.drop 2 else tokens
  match tokens with
  | .word w :: rest =>
    set rest
    let isLong ← moreNames (rest.length + 1)
    pure (if isAbsolute || isLong then none else some w)
  | [] => throw .expectedOption
  | _ => throw (if startsWithLiteral tokens then .literalForOption else .tokenForOption)

/-- **Options in a row**, each folded into the state by `step`. -/
def options {σ : Type} (step : σ → Option String → OptionReader σ) : Nat → σ → OptionReader σ
  | 0, s => pure s
  | fuel + 1, s => do
    let name ← optionName
    let s ← step s name
    if (← get).isEmpty then
      pure s
    else
      mark ','
      if (← get).isEmpty then pure s else options step fuel s

/-- **State after all options** of an attribute. -/
def foldOptions {σ : Type} (step : σ → Option String → OptionReader σ) (s : σ) (inside : List Token) :
    Except DeriveError σ :=
  if inside.isEmpty then .ok s
  else (·.1) <$> (options step inside.length s).run inside

end OptionReader

end FormWiring
