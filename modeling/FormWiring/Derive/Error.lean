import FormWiring.Host
import FormWiring.WiringUnit.Code

/-!
# Errors of derivation

Why no unit can be derived from a declaration. The first fault in source order is the one reported.
-/

set_option autoImplicit false

namespace FormWiring

/-- **Kinds of literal** that an option can ask for. -/
inductive LiteralKind where
  | text
  | integer
  | truth
  deriving DecidableEq, Repr

/-- **Wording** of a kind of literal. -/
def LiteralKind.wording : LiteralKind → String
  | .text => "expected string literal"
  | .integer => "expected integer literal"
  | .truth => "expected boolean literal"

/-- **Errors of derivation.** -/
inductive DeriveError where
  /-- A mark is missing. -/
  | expectedMark (c : Char)
  /-- A literal is missing, possibly because the options end. -/
  | expectedLiteral (kind : LiteralKind) (atEnd : Bool)
  /-- The options end where another one must stand. -/
  | expectedOption
  | literalForOption
  | tokenForOption
  /-- A path goes on without a name. -/
  | expectedName (atEnd : Bool)
  /-- The callback attribute has no options at all. -/
  | bareCallbacks
  /-- The callback attribute has a value. -/
  | callbacksAsValue
  | unknownCallback
  | conflictingErrorCallbacks
  | namelessField
  | actionWithOptions (action : String)
  | secondAction
  | duplicateRule (field : String)
  | actionIsValidated (field : String)
  | ruleAsValue (kind : RuleKind)
  | expectedOptionName
  | unsupportedOption (kind : RuleKind) (option : String)
  | missingOption (kind : RuleKind) (option : String)
  | resourceNotInteger
  | notAnInteger
  | genericHost
  | notAStructure
  | tupleStructure
  | missingSuccessCallback
  /-- Two fields are the same action. -/
  | repeatedAction (action : String)
  | expansion (e : ExpandError)
  deriving DecidableEq, Repr

/-- **Wording** of an error. -/
def DeriveError.message : DeriveError → String
  | .expectedMark c => "expected `" ++ String.singleton c ++ "`"
  | .expectedLiteral kind atEnd => (if atEnd then "unexpected end of input, " else "") ++ kind.wording
  | .expectedOption => "unexpected end of input, expected nested attribute"
  | .literalForOption => "unexpected literal in nested attribute, expected ident"
  | .tokenForOption => "unexpected token in nested attribute, expected ident"
  | .expectedName atEnd => (if atEnd then "unexpected end of input, " else "") ++ "expected ident"
  | .bareCallbacks => "expected attribute arguments in parentheses: #[validation(...)]"
  | .callbacksAsValue => "expected parentheses: #[validation(...)]"
  | .unknownCallback => "expected `on_success`, `on_error` or `on_error_with_errors`"
  | .conflictingErrorCallbacks => "`on_error` and `on_error_with_errors` cannot both be set"
  | .namelessField => "Validation requires named fields"
  | .actionWithOptions action => "`#[" ++ action ++ "]` takes no options"
  | .secondAction => "a field can only be one action element"
  | .duplicateRule field => "field `" ++ field ++ "` declares more than one validation rule"
  | .actionIsValidated field => (FormError.actionIsValidated field).message
  | .ruleAsValue kind =>
    "expected `#[" ++ kind.attributeName ++ "]` or `#[" ++ kind.attributeName ++ "(...)]`"
  | .expectedOptionName => "expected an option name"
  | .unsupportedOption kind option =>
    "`#[" ++ kind.attributeName ++ "]` does not accept the `" ++ option ++ "` option"
  | .missingOption kind option =>
    "`#[" ++ kind.attributeName ++ "]` requires the `" ++ option ++ "` option"
  | .resourceNotInteger => "expected an i32 resource id"
  | .notAnInteger => "expected an integer"
  | .genericHost => "Validation cannot be derived for generic types"
  | .notAStructure => "Validation can only be derived for structs"
  | .tupleStructure => "Validation only supports structs with named fields"
  | .missingSuccessCallback => "missing `#[validation(on_success = \"...\")]` on the host type"
  | .repeatedAction action => "only one field can be `#[" ++ action ++ "]`"
  | .expansion e => e.message

end FormWiring
