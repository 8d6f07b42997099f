import FormWiring.Proofs.CodeText
import FormWiring.Proofs.WrittenNames
import Mathlib.Data.List.Forall2

/-!
# Validators told from their code

The code of a construction names the kind of the validator, and the kind says what stands in each slot: an input, a
message, a flag, a number or a text. In slots of one sort no two arguments have the same code, and the code of an
argument shows where it ends; so equal texts come from equal constructions, and additions in a row from the same
descriptors in the same order.

Main statements: `forall₂_fills_of_descriptor?`, `WiringUnit.validator_cancel`, `WiringUnit.additions_cancel`.
-/

set_option autoImplicit false

namespace FormWiring

open Code Code.Lexeme

/-! ## Slots -/

/-- **Slots** of a constructor: what sort of argument stands there. -/
inductive Slot where
  | input
  | message
  | flag
  | number
  | text
  deriving DecidableEq, Repr

/-- **Slots of a validator's constructor**, by its kind. -/
def ValidatorKind.slots : ValidatorKind → List Slot
  | .required => [.input, .message, .flag]
  | .email | .onlyNumber | .cpf | .cnpj | .isbn | .creditCard | .ipv4 | .ipv6 | .url =>
    [.input, .message, .flag, .flag]
  | .confirmEmail | .confirmPassword => [.input, .input, .message, .flag]
  | .pattern => [.input, .message, .text, .flag, .flag]
  | .length => [.input, .message, .number, .number, .flag, .flag]
  | .password => [.input, .message, .number, .text, .flag]
  | .between => [.input, .input, .message, .message, .flag, .flag]
  | .numericLimit => [.input, .message, .flag, .text, .text, .flag]
  | .pastDate | .futureDate => [.input, .message, .text, .text, .flag, .flag]

/-- **An argument fills a slot** of its sort. The member of an input is an identifier as it is written. -/
inductive Fills : Slot → Expr → Prop where
  | input {member : String} (h : identifier? member = some member) : Fills .input (.input member)
  | message (source : MessageSource) : Fills .message (.message source)
  | flag (value : Bool) : Fills .flag (.bool value)
  | number (value : Int64) : Fills .number (.int value)
  | text (value : String) : Fills .text (.text value)

/-- **Arguments** of a descriptor's construction. -/
def Descriptor.arguments (d : Descriptor) : List Expr :=
  d.targets.map .input ++ .message d.message :: d.args.map WiringUnit.argExpr

theorem WiringUnit.validatorExpr_eq (d : Descriptor) : validatorExpr d = .newValidator d.kind d.arguments := rfl

/-- **Every construction fits its kind.** A descriptor of a field fills the slots of its kind, whatever the rule and the
other fields are. -/
theorem forall₂_fills_of_descriptor? {fields : List Field} {f : Field} {d : Descriptor}
    (hnames : ∀ field ∈ fields, identifier? field.name = some field.name) (hf : f ∈ fields)
    (h : f.descriptor? fields = some d) : List.Forall₂ Fills d.kind.slots d.arguments := by
  have hown := hnames f hf
  have hpartner : ∀ g, f.partner? fields = some g → identifier? g.name = some g.name := by
    intro g hg
    unfold Field.partner? at hg
    split at hg
    · exact hnames g (List.mem_of_find?_eq_some hg)
    · cases hg
    · cases hg
  -- a rule that stands alone has its own field as its only input; the others have their partner's as well
  unfold Field.descriptor? at h
  split at h
  case h_17 | h_18 | h_19 =>
    obtain ⟨g, hg, rfl⟩ := Option.map_eq_some_iff.1 h
    have := hpartner g hg
    repeat' constructor
    all_goals assumption
  case h_20 => cases h
  all_goals
    cases h
    repeat' constructor
    exact hown

/-! ## Codes of arguments -/

/-- **Both parts of a computation succeed** when the whole does. -/
theorem bind_eq_ok_iff {ε α β : Type} {x : Except ε α} {f : α → Except ε β} {b : β} :
    (x >>= f) = .ok b ↔ ∃ a, x = .ok a ∧ f a = .ok b := by
  cases x with
  | error e => simp [bind, Except.bind]
  | ok a => simp [bind, Except.bind]

namespace Code.Lexeme

/-- **Code that starts like a path** of the runtime: from the root, or from a place that a keyword names. -/
def StartsPath (code : List Lexeme) : Prop :=
  ∃ a more, code = a :: more ∧ (a = .mark ':' true ∨ ∃ w ∈ ["crate", "self", "super"], a = .word w)

theorem StartsPath.standsApart {code : List Lexeme} (h : StartsPath code) (rest : List Lexeme) :
    StandsApart (code ++ rest) := by
  obtain ⟨a, more, rfl, rfl | ⟨w, -, rfl⟩⟩ := h
  · exact ⟨_, _, rfl, rfl⟩
  · exact ⟨_, _, rfl, rfl⟩

/-- A path is no quoted text. -/
theorem StartsPath.ne_text {code : List Lexeme} (h : StartsPath code) (rest rest' : List Lexeme) (t : String) :
    textChars (code ++ rest) ≠ textChars (.literal (Text.quoteLiteral t) :: rest') := by
  obtain ⟨a, more, rfl, ha⟩ := h
  rw [List.cons_append, textChars_cons, textChars_cons]
  change a.chars ++ _ ≠ (Text.quoteLiteral t).toList ++ _
  rw [toList_quoteLiteral, List.cons_append]
  rcases ha with rfl | ⟨w, hw, rfl⟩
  · simp [chars]
  · simp only [List.mem_cons, List.not_mem_nil, or_false] at hw
    rcases hw with rfl | rfl | rfl <;> simp [chars]

/-- Parts after the first one stand behind a comma each. -/
theorem commaSeparated_cons (part : List Lexeme) (parts : List (List Lexeme)) :
    commaSeparated (part :: parts) = part ++ parts.flatMap (WiringUnit.comma :: ·) := by
  induction parts generalizing part with
  | nil => simp [commaSeparated]
  | cons next parts ih =>
    rw [commaSeparated, ih, List.flatMap_cons]
    · rfl
    · simp

end Code.Lexeme

namespace WiringUnit

section Arguments

variable (s : Surroundings)

/-- **Code before the member** of an input. -/
def inputFront : List Lexeme :=
  s.item ["ui", "InputHandle", "input_handle"] ++ [.opening .round, ampersand, .word targetName]

/-- **Code before the number** of a resource. -/
def resourceFront : List Lexeme :=
  s.item ["ui", "StringResources", "get_string"] ++
    [.opening .round, ampersand, .mark '*' false, .mark '*' false, .word targetName]

theorem exprCode_input_front {member w : String} (h : identifier? member = some w) :
    exprCode s (.input member) = .ok (inputFront s ++ dot :: [.word w, .closing .round]) := by
  rw [exprCode_input s h]
  simp [inputFront, callCode, Lexeme.group, Lexeme.commaSeparated]

theorem exprCode_resource_front (id : Int32) : exprCode s (.message (.resource id)) =
    .ok (resourceFront s ++ comma :: (intCode id.toInt ++ [.closing .round])) := by
  rw [exprCode]
  simp [resourceFront, callCode, Lexeme.group, Lexeme.commaSeparated, targetName, comma, pure, Except.pure]

/-! ## Arguments told apart -/

variable {s}

/-- **Messages**: a quoted one is never taken for one that is looked up, and either is determined. -/
theorem message_cancel (hs : StartsPath s.runtime) {m m' : MessageSource} {code code' : List Lexeme}
    (hcode : exprCode s (.message m) = .ok code) (hcode' : exprCode s (.message m') = .ok code')
    {rest rest' : List Lexeme} (h : textChars (code ++ rest) = textChars (code' ++ rest')) :
    m = m' ∧ following rest = following rest' := by
  have hresource : ∀ more, resourceFront s ++ more = s.runtime ++
      (Lexeme.rootPath ["ui", "StringResources", "get_string"] ++ ([.opening .round, ampersand, .mark '*' false,
        .mark '*' false, .word targetName] ++ more)) := by
    intro more
    simp [resourceFront, Surroundings.item]
  cases m with
  | literal t =>
    cases hcode
    cases m' with
    | literal t' =>
      cases hcode'
      obtain ⟨rfl, hrest⟩ := text_cancel h
      exact ⟨rfl, hrest⟩
    | resource id =>
      rw [exprCode_resource_front] at hcode'
      cases hcode'
      rw [List.append_assoc, hresource] at h
      exact absurd h.symm (hs.ne_text _ _ _)
  | resource id =>
    rw [exprCode_resource_front] at hcode
    cases hcode
    cases m' with
    | literal t' =>
      cases hcode'
      rw [List.append_assoc, hresource] at h
      exact absurd h (hs.ne_text _ _ _)
    | resource id' =>
      rw [exprCode_resource_front] at hcode'
      cases hcode'
      rw [List.append_assoc, List.append_assoc, List.cons_append, List.cons_append, List.append_assoc,
        List.append_assoc] at h
      have hbehind := front_cancel (resourceFront s) comma h
      have hnumber := gap_cancel (standsApart_intCode _) (standsApart_intCode _) hbehind
      obtain ⟨hid, hclosing⟩ := int_cancel hnumber
      have hrest := gap_front_cancel [] (.closing .round) hclosing
      exact ⟨congrArg _ (Int32.toInt_inj.1 hid), hrest⟩

/-- **Arguments of one sort** are told apart by their codes, and each shows where it ends. -/
theorem argument_cancel (hs : StartsPath s.runtime) {slot : Slot} {e e' : Expr} (he : Fills slot e)
    (he' : Fills slot e') {code code' : List Lexeme} (hcode : exprCode s e = .ok code)
    (hcode' : exprCode s e' = .ok code') {rest rest' : List Lexeme}
    (h : textChars (code ++ rest) = textChars (code' ++ rest')) : e = e' ∧ following rest = following rest' := by
  cases he with
  | @input member hmember =>
    cases he' with
    | @input member' hmember' =>
      rw [exprCode_input_front s hmember] at hcode
      rw [exprCode_input_front s hmember'] at hcode'
      cases hcode
      cases hcode'
      rw [List.append_assoc, List.append_assoc] at h
      have hbehind := front_cancel (inputFront s) dot h
      have hword := gap_cancel (standsApart_word member) (standsApart_word member') hbehind
      obtain ⟨-, -, -, -, hname, -⟩ := holdsWord_of_identifier? hmember
      obtain ⟨-, -, -, -, hname', -⟩ := holdsWord_of_identifier? hmember'
      obtain ⟨rfl, hclosing⟩ := word_cancel (isUnbroken_of_isWord hname) (isUnbroken_of_isWord hname') hword
      exact ⟨rfl, gap_front_cancel [] (.closing .round) hclosing⟩
  | message source =>
    cases he' with
    | message source' =>
      obtain ⟨rfl, hrest⟩ := message_cancel hs hcode hcode' h
      exact ⟨rfl, hrest⟩
  | flag value =>
    cases he' with
    | flag value' =>
      cases hcode
      cases hcode'
      have hunbroken : ∀ value : Bool, isUnbroken (if value then "true" else "false") = true := by decide
      obtain ⟨hword, hrest⟩ := word_cancel (hunbroken value) (hunbroken value') h
      have hvalue : value = value' := by
        revert hword
        cases value <;> cases value' <;> simp
      exact ⟨congrArg _ hvalue, hrest⟩
  | number value =>
    cases he' with
    | number value' =>
      cases hcode
      cases hcode'
      obtain ⟨hvalue, hrest⟩ := int_cancel h
      exact ⟨congrArg _ (Int64.toInt_inj.1 hvalue), hrest⟩
  | text value =>
    cases he' with
    | text value' =>
      cases hcode
      cases hcode'
      obtain ⟨rfl, hrest⟩ := text_cancel h
      exact ⟨rfl, hrest⟩

/-- The code of an argument stands apart. -/
theorem standsApart_of_fills (hs : StartsPath s.runtime) {slot : Slot} {e : Expr} (he : Fills slot e)
    {code : List Lexeme} (hcode : exprCode s e = .ok code) : StandsApart code := by
  have hitem : ∀ names more, StandsApart (s.item names ++ more) := by
    intro names more
    unfold Surroundings.item
    rw [List.append_assoc]
    exact hs.standsApart _
  cases he with
  | input hmember =>
    rw [exprCode_input_front s hmember] at hcode
    cases hcode
    unfold inputFront
    rw [List.append_assoc]
    exact hitem _ _
  | message source =>
    cases source with
    | literal t =>
      cases hcode
      exact standsApart_literal _
    | resource id =>
      rw [exprCode_resource_front] at hcode
      cases hcode
      unfold resourceFront
      rw [List.append_assoc]
      exact hitem _ _
  | flag value =>
    cases hcode
    exact standsApart_word _
  | number value =>
    cases hcode
    exact standsApart_intCode _
  | text value =>
    cases hcode
    exact standsApart_literal _

theorem exprCodes_cons_eq_ok {e : Expr} {es : List Expr} {codes : List (List Lexeme)}
    (h : exprCodes s (e :: es) = .ok codes) :
    ∃ code more, exprCode s e = .ok code ∧ exprCodes s es = .ok more ∧ codes = code :: more := by
  rw [exprCodes] at h
  obtain ⟨code, hcode, h⟩ := bind_eq_ok_iff.1 h
  obtain ⟨more, hmore, h⟩ := bind_eq_ok_iff.1 h
  cases h
  exact ⟨code, more, hcode, hmore, rfl⟩

/-- Further arguments, each behind a comma, up to the end of their group. -/
theorem further_arguments_cancel (hs : StartsPath s.runtime) {slots : List Slot} {es es' : List Expr}
    (hes : List.Forall₂ Fills slots es) (hes' : List.Forall₂ Fills slots es') {codes codes' : List (List Lexeme)}
    (hcodes : exprCodes s es = .ok codes) (hcodes' : exprCodes s es' = .ok codes') {rest rest' : List Lexeme}
    (h : following (codes.flatMap (comma :: ·) ++ .closing .round :: rest) =
      following (codes'.flatMap (comma :: ·) ++ .closing .round :: rest')) :
    es = es' ∧ following rest = following rest' := by
  induction hes generalizing es' codes codes' with
  | nil =>
    cases hes' with
    | nil =>
      cases hcodes
      cases hcodes'
      exact ⟨rfl, gap_front_cancel [] (.closing .round) h⟩
  | cons he _ ih =>
    cases hes' with
    | cons he' hrest' =>
      obtain ⟨code, more, hcode, hmore, rfl⟩ := exprCodes_cons_eq_ok hcodes
      obtain ⟨code', more', hcode', hmore', rfl⟩ := exprCodes_cons_eq_ok hcodes'
      rw [List.flatMap_cons, List.flatMap_cons, List.append_assoc, List.append_assoc, List.cons_append,
        List.cons_append] at h
      have hbehind := gap_front_cancel [] comma h
      have htext := gap_cancel (standsApart_of_fills hs he hcode) (standsApart_of_fills hs he' hcode') hbehind
      obtain ⟨rfl, hfurther⟩ := argument_cancel hs he he' hcode hcode' htext
      obtain ⟨rfl, hrest⟩ := ih hrest' hmore hmore' hfurther
      exact ⟨rfl, hrest⟩

/-- **Arguments in the same slots** are told apart by their codes. -/
theorem arguments_cancel (hs : StartsPath s.runtime) {slots : List Slot} {es es' : List Expr}
    (hes : List.Forall₂ Fills slots es) (hes' : List.Forall₂ Fills slots es') {codes codes' : List (List Lexeme)}
    (hcodes : exprCodes s es = .ok codes) (hcodes' : exprCodes s es' = .ok codes') {rest rest' : List Lexeme}
    (h : textChars (Lexeme.commaSeparated codes ++ .closing .round :: rest) =
      textChars (Lexeme.commaSeparated codes' ++ .closing .round :: rest')) :
    es = es' ∧ following rest = following rest' := by
  cases hes with
  | nil =>
    cases hes' with
    | nil =>
      cases hcodes
      cases hcodes'
      exact ⟨rfl, front_cancel [] (.closing .round) h⟩
  | cons he hmore =>
    cases hes' with
    | cons he' hmore' =>
      obtain ⟨code, more, hcode, hfront, rfl⟩ := exprCodes_cons_eq_ok hcodes
      obtain ⟨code', more', hcode', hfront', rfl⟩ := exprCodes_cons_eq_ok hcodes'
      rw [commaSeparated_cons, commaSeparated_cons, List.append_assoc, List.append_assoc] at h
      obtain ⟨rfl, hfurther⟩ := argument_cancel hs he he' hcode hcode' h
      obtain ⟨rfl, hrest⟩ := further_arguments_cancel hs hmore hmore' hfront hfront' hfurther
      exact ⟨rfl, hrest⟩

end Arguments

/-! ## Validators and additions -/

section Additions

variable {s : Surroundings}

/-- **Code before the kind** of a validator. -/
def validatorFront (s : Surroundings) : List Lexeme :=
  s.runtime ++ (colons ++ [.word "validators", .mark ':' true])

/-- The code of a construction: the kind, then the arguments in brackets. -/
theorem exprCode_validatorExpr {d : Descriptor} {code : List Lexeme} (h : exprCode s (validatorExpr d) = .ok code) :
    ∃ codes, exprCodes s d.arguments = .ok codes ∧
      code = validatorFront s ++ .mark ':' false :: .word d.kind.typeName ::
        (colons ++ [.word "new"] ++ .opening .round :: (Lexeme.commaSeparated codes ++ [.closing .round])) := by
  rw [validatorExpr_eq, exprCode] at h
  obtain ⟨codes, hcodes, h⟩ := bind_eq_ok_iff.1 h
  cases h
  refine ⟨codes, hcodes, ?_⟩
  simp [validatorFront, callCode, Surroundings.item, Lexeme.rootPath, Lexeme.marks, colons, Lexeme.group]

theorem isUnbroken_typeName (kind : ValidatorKind) : isUnbroken kind.typeName = true := by
  cases kind <;> decide

/-- **Constructions are told apart by their codes**: the kind, the targets, the message and every argument. -/
theorem validator_cancel (hs : StartsPath s.runtime) {d d' : Descriptor}
    (hd : List.Forall₂ Fills d.kind.slots d.arguments) (hd' : List.Forall₂ Fills d'.kind.slots d'.arguments)
    {code code' : List Lexeme} (hcode : exprCode s (validatorExpr d) = .ok code)
    (hcode' : exprCode s (validatorExpr d') = .ok code') {rest rest' : List Lexeme}
    (h : textChars (code ++ rest) = textChars (code' ++ rest')) : d = d' ∧ following rest = following rest' := by
  obtain ⟨codes, hcodes, rfl⟩ := exprCode_validatorExpr hcode
  obtain ⟨codes', hcodes', rfl⟩ := exprCode_validatorExpr hcode'
  simp only [List.append_assoc, List.cons_append] at h
  have hkindText := gap_cancel (standsApart_word _) (standsApart_word _) (front_cancel (validatorFront s) _ h)
  obtain ⟨hname, hbehind⟩ := word_cancel (isUnbroken_typeName _) (isUnbroken_typeName _) hkindText
  have hkind := ValidatorKind.typeName_injective hname
  -- the kinds agree, and with them the slots
  rw [← hkind] at hd'
  have hinside := gap_front_cancel (colons ++ [.word "new"]) (.opening .round) hbehind
  obtain ⟨harguments, hrest⟩ := arguments_cancel hs hd hd' hcodes hcodes' hinside
  have hsame : validatorExpr d = validatorExpr d' := by
    rw [validatorExpr_eq, validatorExpr_eq, hkind, harguments]
  have hread := congrArg Descriptor.ofConstruction? hsame
  rw [Descriptor.ofConstruction?_validatorExpr, Descriptor.ofConstruction?_validatorExpr] at hread
  exact ⟨Option.some.inj hread, hrest⟩

/-- The code of an addition: the call on the set with the construction inside. -/
theorem stmtCode_addValidator {d : Descriptor} {code : List Lexeme} (h : stmtCode s (addValidator d) = .ok code) :
    ∃ inside, exprCode s (validatorExpr d) = .ok inside ∧
      code = .word setName :: ([dot, .word "add_validator"] ++
        .opening .round :: (inside ++ [.closing .round, semicolon])) := by
  have hset : nameCode setName = .ok (.word setName) := nameCode_own (by decide)
  have hadd : nameCode "add_validator" = .ok (.word "add_validator") := nameCode_own (by decide)
  rw [addValidator, stmtCode] at h
  obtain ⟨call, hcall, h⟩ := bind_eq_ok_iff.1 h
  cases h
  rw [exprCode, setVar, exprCode, hset, hadd] at hcall
  have hwritten : (do
      let args ← exprCodes s [validatorExpr d]
      pure (callCode [.word setName, dot, .word "add_validator"] args)) = .ok call := hcall
  obtain ⟨args, hargs, hwritten⟩ := bind_eq_ok_iff.1 hwritten
  obtain ⟨inside, more, hinside, hmore, rfl⟩ := exprCodes_cons_eq_ok hargs
  cases hmore
  cases hwritten
  refine ⟨inside, hinside, ?_⟩
  simp [callCode, Lexeme.group, Lexeme.commaSeparated]

theorem stmtCodes_cons_eq_ok {stmt : Stmt} {stmts : List Stmt} {code : List Lexeme}
    (h : stmtCodes s (stmt :: stmts) = .ok code) :
    ∃ front back, stmtCode s stmt = .ok front ∧ stmtCodes s stmts = .ok back ∧ code = front ++ back := by
  rw [stmtCodes] at h
  obtain ⟨front, hfront, h⟩ := bind_eq_ok_iff.1 h
  obtain ⟨back, hback, h⟩ := bind_eq_ok_iff.1 h
  cases h
  exact ⟨front, back, hfront, hback, rfl⟩

/-- **Additions in a row are told apart by their codes**: a binding ends the row, so the descriptors, their number and
their order are determined. -/
theorem additions_cancel (hs : StartsPath s.runtime) {ds ds' : List Descriptor}
    (hds : ∀ d ∈ ds, List.Forall₂ Fills d.kind.slots d.arguments)
    (hds' : ∀ d ∈ ds', List.Forall₂ Fills d.kind.slots d.arguments) {code code' : List Lexeme}
    (hcode : stmtCodes s (ds.map addValidator) = .ok code) (hcode' : stmtCodes s (ds'.map addValidator) = .ok code')
    {rest rest' : List Lexeme}
    (h : following (code ++ .word "let" :: rest) = following (code' ++ .word "let" :: rest')) : ds = ds' := by
  -- an addition is no binding, so the rows end together
  have hends : ∀ more more', following (.word setName :: more) ≠ following (.word "let" :: more') :=
    words_ne (by decide) (by decide) (by decide)
  induction ds generalizing ds' code code' with
  | nil =>
    cases hcode
    cases ds' with
    | nil => rfl
    | cons d' ds' =>
      obtain ⟨front', back', hfront', -, rfl⟩ := stmtCodes_cons_eq_ok hcode'
      obtain ⟨inside', -, rfl⟩ := stmtCode_addValidator hfront'
      exact absurd h.symm (hends _ _)
  | cons d ds ih =>
    obtain ⟨front, back, hfront, hback, rfl⟩ := stmtCodes_cons_eq_ok hcode
    obtain ⟨inside, hinside, rfl⟩ := stmtCode_addValidator hfront
    cases ds' with
    | nil =>
      cases hcode'
      exact absurd h (hends _ _)
    | cons d' ds' =>
      obtain ⟨front', back', hfront', hback', rfl⟩ := stmtCodes_cons_eq_ok hcode'
      obtain ⟨inside', hinside', rfl⟩ := stmtCode_addValidator hfront'
      simp only [List.append_assoc, List.cons_append] at h
      have hconstruction := gap_front_cancel [.word setName, dot, .word "add_validator"] (.opening .round) h
      obtain ⟨rfl, hclosing⟩ := validator_cancel hs (hds d List.mem_cons_self) (hds' d' List.mem_cons_self) hinside
        hinside' hconstruction
      have hrow := gap_front_cancel [.closing .round] semicolon hclosing
      rw [ih (fun x hx => hds x (List.mem_cons_of_mem d hx)) (fun x hx => hds' x (List.mem_cons_of_mem d hx)) hback
        hback' hrow]

end Additions

end WiringUnit

end FormWiring
