import FormWiring.Proofs.ValidatorCode

/-!
# Code determines the plan

The code of a unit is read from the front, next to the code of another one with the same text. The documentation names
the host, and with it the paths and the name of the unit are known; the parameters of the constructor tell the variant;
then come the additions, which tell the descriptors. Nothing before the additions has a length of its own that the text
would not show: the visibility and the mode of the set are told by their words.

Main statement: `Form.plan_eq_of_expand_eq`.
-/

set_option autoImplicit false

namespace FormWiring

open Code Code.Lexeme

/-! ## Paths -/

namespace Code

theorem Reader.bind_eq_some_iff {α β : Type} {x : Reader α} {f : α → Reader β} {b : β} {t r : List Token} :
    (x >>= f) t = some (b, r) ↔ ∃ a left, x t = some (a, left) ∧ f a left = some (b, r) := by
  change ((x t).bind fun p => f p.1 p.2) = some (b, r) ↔ _
  rw [Option.bind_eq_some_iff]
  exact Prod.exists

/-- **Head of a path's code**: the two colons of an absolute one, then its first name. -/
def PathCode.HasHead (p : PathCode) : Prop :=
  ∃ more, p.code = (if p.isAbsolute then Lexeme.marks [':', ':'] else []) ++ .word p.first :: more

/-- Further segments leave the head as it is. -/
theorem hasHead_pathRest {fuel : Nat} {inExpr : Bool} {p q : PathCode} {t r : List Token} (hp : p.HasHead)
    (h : Reader.pathRest fuel inExpr p t = some (q, r)) : q.HasHead := by
  induction fuel generalizing p t with
  | zero => cases h
  | succ fuel ih =>
    rw [Reader.pathRest] at h
    obtain ⟨tokens, left, -, h⟩ := Reader.bind_eq_some_iff.1 h
    split at h
    · obtain ⟨colons, left, -, h⟩ := Reader.bind_eq_some_iff.1 h
      obtain ⟨⟨name, args⟩, left, -, h⟩ := Reader.bind_eq_some_iff.1 h
      refine ih ?_ h
      obtain ⟨more, hcode⟩ := hp
      refine ⟨more ++ (colons ++ .word name :: args.getD []), ?_⟩
      dsimp only
      rw [hcode]
      simp
    · cases h
      exact hp

theorem hasHead_path {fuel : Nat} {inExpr : Bool} {p : PathCode} {t r : List Token}
    (h : Reader.path fuel inExpr t = some (p, r)) : p.HasHead := by
  cases fuel with
  | zero => cases h
  | succ fuel =>
    rw [Reader.path] at h
    obtain ⟨leading, left, hleading, h⟩ := Reader.bind_eq_some_iff.1 h
    obtain ⟨⟨name, args⟩, left', -, h⟩ := Reader.bind_eq_some_iff.1 h
    refine hasHead_pathRest ?_ h
    refine ⟨args.getD [], ?_⟩
    unfold Reader.marks? at hleading
    split at hleading <;> cases hleading <;> rfl

end Code

namespace WiringUnit

/-- The path of the runtime starts like one, whatever text it was read from. -/
theorem startsPath_runtimeCode {text : String} {p : PathCode} (h : path? text = some p) :
    StartsPath (runtimeCode p) := by
  have hhead : p.HasHead := by
    obtain ⟨tokens, -, hrun⟩ := Option.bind_eq_some_iff.1 h
    unfold Reader.run? at hrun
    split at hrun
    · next hpath =>
      cases hrun
      exact hasHead_path hpath
    · cases hrun
  obtain ⟨more, hcode⟩ := hhead
  unfold runtimeCode
  by_cases habsolute : p.isAbsolute = true
  · rw [habsolute, Bool.true_or, if_pos rfl, hcode, habsolute, if_pos rfl]
    exact ⟨_, _, rfl, .inl rfl⟩
  · rw [Bool.not_eq_true] at habsolute
    rw [habsolute, if_neg Bool.false_ne_true, List.nil_append] at hcode
    rw [habsolute, Bool.false_or]
    by_cases hkeyword : ["crate", "self", "super"].contains p.first = true
    · rw [if_pos hkeyword, hcode]
      exact ⟨_, _, rfl, .inr ⟨p.first, List.contains_iff_mem.1 hkeyword, rfl⟩⟩
    · rw [if_neg hkeyword]
      exact ⟨_, _, rfl, .inl rfl⟩

/-! ## The front of a unit -/

section Front

variable (s : Surroundings)

/-- **Code between the documentation and the visibility.** -/
def allowance : List Lexeme :=
  .closing .square :: .mark '#' false :: .opening .square ::
    (callCode [.word "allow"] [[.word "dead_code"]] ++ [.closing .square])

/-- **Code of a constructor** to the type of its first parameter, without the closing bracket of that type. -/
def constructorFront : List Lexeme :=
  [.word "fn", .word "new", .opening .round, .word targetName, colon, ampersand] ++
    (sharedPath ++ .mark '<' false :: s.host)

/-- **Code from the name of the unit** to its constructor. -/
def unitFront (name : Lexeme) : List Lexeme :=
  name :: (Lexeme.group .curly (.word setName :: colon :: (typeCode s .sharedValidatorSet ++ [comma])) ++
    (attributeCode (callCode [.word "allow"] [[.word "dead_code"], [.word "unused_variables"]]) ++
      [.word "impl", name, .opening .curly]))

/-- **Code of a direct constructor** before its first statement. -/
def resultFront : List Lexeme :=
  Lexeme.marks ['-', '>'] ++ [.word "Self", .opening .curly]

/-- **Code of an empty set.** -/
def newSetCode : List Lexeme :=
  callCode (s.item ["ValidatorSet", "new"]) []

/-- **Mode of the set's first binding.** -/
def modeCode (ds : List Descriptor) : List Lexeme :=
  if ds.isEmpty then [] else [.word "mut"]

/-- **What follows the first parameter** of a constructor, by the variant. In the direct one the parameters end, and
the additions of the descriptors stand between two bindings; in the reflective one there is another parameter. -/
inductive FollowsHost : Variant → List Descriptor → List Lexeme → Prop where
  | direct {ds : List Descriptor} {additions : List Lexeme} (tail : List Lexeme)
      (h : stmtCodes s (ds.map addValidator) = .ok additions) :
      FollowsHost .direct ds (.closing .round :: (resultFront ++ .word "let" :: (modeCode ds ++
        .word setName :: equals :: (newSetCode s ++ semicolon :: (additions ++ .word "let" :: tail)))))
  | reflective (tail : List Lexeme) : FollowsHost .reflective [] (comma :: tail)

variable {s}

theorem FollowsHost.append {v : Variant} {ds : List Descriptor} {after : List Lexeme} (h : FollowsHost s v ds after)
    (more : List Lexeme) : FollowsHost s v ds (after ++ more) := by
  cases h with
  | direct tail hadditions =>
    have hmore := FollowsHost.direct (tail ++ more) hadditions
    simpa using hmore
  | reflective tail => exact .reflective (tail ++ more)

theorem mapM_cons_eq_ok {α β : Type} {f : α → Except CodeError β} {a : α} {l : List α} {bs : List β}
    (h : (a :: l).mapM f = .ok bs) : ∃ b more, f a = .ok b ∧ l.mapM f = .ok more ∧ bs = b :: more := by
  rw [List.mapM_cons] at h
  obtain ⟨b, hb, h⟩ := bind_eq_ok_iff.1 h
  obtain ⟨more, hmore, h⟩ := bind_eq_ok_iff.1 h
  cases h
  exact ⟨b, more, hb, hmore, rfl⟩

theorem stmtCodes_append_eq_ok {front back : List Stmt} {code : List Lexeme}
    (h : stmtCodes s (front ++ back) = .ok code) :
    ∃ c c', stmtCodes s front = .ok c ∧ stmtCodes s back = .ok c' ∧ code = c ++ c' := by
  induction front generalizing code with
  | nil => exact ⟨[], code, rfl, h, rfl⟩
  | cons stmt front ih =>
    obtain ⟨first, rest, hfirst, hrest, rfl⟩ := stmtCodes_cons_eq_ok h
    obtain ⟨c, c', hc, hc', rfl⟩ := ih hrest
    refine ⟨first ++ c, c', ?_, hc', (List.append_assoc first c c').symm⟩
    rw [stmtCodes, hfirst, hc]
    rfl

theorem stmtCode_bind_eq_ok {name : String} {isMutable : Bool} {value : Expr} {code : List Lexeme}
    (hname : name ∈ ownNames) (h : stmtCode s (.bind name isMutable value) = .ok code) :
    ∃ c, exprCode s value = .ok c ∧ code = .word "let" ::
      ((if isMutable then [.word "mut"] else []) ++ .word name :: equals :: (c ++ [semicolon])) := by
  rw [stmtCode] at h
  obtain ⟨w, hw, h⟩ := bind_eq_ok_iff.1 h
  obtain ⟨c, hc, h⟩ := bind_eq_ok_iff.1 h
  rw [nameCode_own hname] at hw
  cases hw
  cases h
  exact ⟨c, hc, rfl⟩

theorem typedNameCode_own {name : String} (h : name ∈ ownNames) (type : TypeRef) :
    typedNameCode s ⟨name, type⟩ = .ok (.word name :: colon :: typeCode s type) := by
  unfold typedNameCode
  rw [nameCode_own h]
  rfl

theorem methodCode_eq_ok {m : Method} {code : List Lexeme} (hname : m.name ∈ ownNames) (h : methodCode s m = .ok code) :
    ∃ params body, m.params.mapM (typedNameCode s) = .ok params ∧ stmtCodes s m.body = .ok body ∧
      code = (if m.isPublic then [Lexeme.word "pub"] else []) ++ .word "fn" :: .word m.name ::
        (Lexeme.group .round (Lexeme.commaSeparated params) ++
          ((match m.returns with
            | some type => Lexeme.marks ['-', '>'] ++ typeCode s type
            | none => []) ++ Lexeme.group .curly body)) := by
  unfold methodCode at h
  obtain ⟨w, hw, h⟩ := bind_eq_ok_iff.1 h
  obtain ⟨params, hparams, h⟩ := bind_eq_ok_iff.1 h
  obtain ⟨body, hbody, h⟩ := bind_eq_ok_iff.1 h
  rw [nameCode_own hname] at hw
  cases hw
  cases h
  exact ⟨params, body, hparams, hbody, rfl⟩

/-- The code of a direct constructor is that of its front and what follows the host. -/
theorem methodCode_directConstructor {form : Form} {ds : List Descriptor} {code : List Lexeme}
    (h : methodCode s (directConstructor form ds) = .ok code) :
    ∃ after, FollowsHost s .direct ds after ∧ code = constructorFront s ++ .mark '>' false :: after := by
  have hname : (directConstructor form ds).name ∈ ownNames := (by decide : "new" ∈ ownNames)
  obtain ⟨params, body, hparams, hbody, rfl⟩ := methodCode_eq_ok hname h
  obtain ⟨target, more, htarget, hmore, rfl⟩ := mapM_cons_eq_ok hparams
  rw [typedNameCode_own (by decide)] at htarget
  cases htarget
  cases hmore
  rw [body_directConstructor, building] at hbody
  rw [List.cons_append] at hbody
  obtain ⟨binding, rest, hbinding, hrest, rfl⟩ := stmtCodes_cons_eq_ok hbody
  obtain ⟨additions, wirings, hadditions, hwirings, rfl⟩ := stmtCodes_append_eq_ok hrest
  obtain ⟨sharing, tail, hsharing, -, rfl⟩ := stmtCodes_cons_eq_ok hwirings
  obtain ⟨set, hset, rfl⟩ := stmtCode_bind_eq_ok (by decide) hbinding
  obtain ⟨shared, -, rfl⟩ := stmtCode_bind_eq_ok (by decide) hsharing
  cases hset
  refine ⟨_, .direct (.word setName :: equals :: (shared ++ semicolon :: (tail ++ [.closing .curly]))) hadditions, ?_⟩
  cases ds <;> simp [constructorFront, directConstructor, typeCode, angled, Lexeme.group, Lexeme.commaSeparated,
    resultFront, modeCode, newSetCode]

/-- The code of a reflective constructor has another parameter behind the host. -/
theorem methodCode_reflectiveConstructor {code : List Lexeme} (h : methodCode s reflectiveConstructor = .ok code) :
    ∃ after, FollowsHost s .reflective [] after ∧ code = constructorFront s ++ .mark '>' false :: after := by
  obtain ⟨params, body, hparams, -, rfl⟩ := methodCode_eq_ok (by decide) h
  obtain ⟨target, more, htarget, hmore, rfl⟩ := mapM_cons_eq_ok hparams
  obtain ⟨binding, further, hbinding, hfurther, rfl⟩ := mapM_cons_eq_ok hmore
  rw [typedNameCode_own (by decide)] at htarget
  cases htarget
  cases hfurther
  refine ⟨_, .reflective (binding ++ .closing .round :: (resultFront ++ (body ++ [.closing .curly]))), ?_⟩
  simp [constructorFront, reflectiveConstructor, typeCode, angled, Lexeme.group, Lexeme.commaSeparated, resultFront,
    comma]

/-- **The code of a unit** from its front to what follows the host in its constructor. -/
theorem exists_followsHost {form : Form} {options : Options} {code : List Lexeme}
    (h : (ofForm form form.descriptors options).bodyCode s = .ok code) :
    ∃ name after, nameCode (form.unitName options) = .ok name ∧
      FollowsHost s (form.variant options) form.descriptors after ∧
      code = [.mark '#' false, .opening .square, .word "doc"] ++ equals ::
        .literal (Text.quoteLiteral (ofForm form form.descriptors options).doc) :: (allowance ++
          (visibilityCode form.visibility ++ .word "struct" ::
            (unitFront s name ++ (constructorFront s ++ .mark '>' false :: after)))) := by
  unfold bodyCode at h
  obtain ⟨name, hname, h⟩ := bind_eq_ok_iff.1 h
  obtain ⟨fields, hfields, h⟩ := bind_eq_ok_iff.1 h
  obtain ⟨methods, hmethods, h⟩ := bind_eq_ok_iff.1 h
  have hset : fields = [.word setName :: colon :: typeCode s .sharedValidatorSet] := by
    have honly : [(⟨setName, .sharedValidatorSet⟩ : TypedName)].mapM (typedNameCode s) = .ok fields := hfields
    obtain ⟨set, more, hset, hmore, rfl⟩ := mapM_cons_eq_ok honly
    rw [typedNameCode_own (by decide)] at hset
    cases hset
    cases hmore
    rfl
  subst hset
  have hconstructor : ∃ constructor others after, methods = constructor :: others ∧
      FollowsHost s (form.variant options) form.descriptors after ∧
      constructor = constructorFront s ++ .mark '>' false :: after := by
    cases hvariant : form.variant options with
    | direct =>
      rw [Execution.methods_ofForm hvariant] at hmethods
      obtain ⟨constructor, others, hcode, -, rfl⟩ := mapM_cons_eq_ok hmethods
      obtain ⟨after, hafter, rfl⟩ := methodCode_directConstructor hcode
      exact ⟨_, others, after, rfl, hafter, rfl⟩
    | reflective =>
      have hreflective : (ofForm form form.descriptors options).methods = reflectiveMethods form := by
        unfold ofForm
        rw [hvariant]
      rw [hreflective] at hmethods
      obtain ⟨constructor, others, hcode, -, rfl⟩ := mapM_cons_eq_ok hmethods
      obtain ⟨after, hafter, rfl⟩ := methodCode_reflectiveConstructor hcode
      rw [descriptors_of_reflective hvariant]
      exact ⟨_, others, after, rfl, hafter, rfl⟩
  obtain ⟨constructor, others, after, rfl, hafter, rfl⟩ := hconstructor
  refine ⟨name, after ++ (others.flatten ++ [.closing .curly]), hname, hafter.append _, ?_⟩
  have hvisibility : (ofForm form form.descriptors options).visibility = form.visibility := rfl
  generalize (ofForm form form.descriptors options).doc = doc at h ⊢
  rw [← Except.ok.inj h, hvisibility]
  simp [attributeCode, callCode, textCode, allowance, unitFront, Lexeme.group, Lexeme.commaSeparated]

end Front

/-! ## Units told apart -/

/-- Visibilities are told apart by the word or the bracket that follows. -/
theorem visibility_cancel {v v' : Visibility} {rest rest' : List Lexeme}
    (h : following (visibilityCode v ++ .word "struct" :: rest) =
      following (visibilityCode v' ++ .word "struct" :: rest')) : following rest = following rest' := by
  have hword : ∀ more more', following (.word "struct" :: more) ≠ following (.word "pub" :: more') :=
    words_ne (by decide) (by decide) (by decide)
  have hbracket : ∀ more more', following (.word "struct" :: more) ≠ following (.opening .round :: more') := by
    intro more more' heq
    rw [following_cons rfl, following_cons rfl, textChars_cons, textChars_cons] at heq
    have hchars := (List.cons.inj (List.cons.inj heq).2).1
    exact absurd hchars (by decide)
  have hsame : v = v' := by
    cases v with
    | inherited =>
      cases v' with
      | inherited => rfl
      | crate => exact absurd h (hword _ _)
      | everywhere => exact absurd h (hword _ _)
    | crate =>
      cases v' with
      | inherited => exact absurd h.symm (hword _ _)
      | crate => rfl
      | everywhere =>
        have hbehind := gap_front_cancel [] (.word "pub") h
        exact absurd hbehind.symm (hbracket _ _)
    | everywhere =>
      cases v' with
      | inherited => exact absurd h.symm (hword _ _)
      | crate =>
        have hbehind := gap_front_cancel [] (.word "pub") h
        exact absurd hbehind (hbracket _ _)
      | everywhere => rfl
  subst hsame
  exact gap_front_cancel (visibilityCode v) (.word "struct") h

/-- Modes of a set's first binding are told apart by the word that follows. -/
theorem mode_cancel {ds ds' : List Descriptor} {rest rest' : List Lexeme}
    (h : following (modeCode ds ++ .word setName :: rest) = following (modeCode ds' ++ .word setName :: rest')) :
    following rest = following rest' := by
  have hmode : ∀ more more', following (.word setName :: more) ≠ following (.word "mut" :: more') :=
    words_ne (by decide) (by decide) (by decide)
  cases ds with
  | nil =>
    cases ds' with
    | nil => exact gap_front_cancel [] (.word setName) h
    | cons d' ds' => exact absurd h (hmode _ _)
  | cons d ds =>
    cases ds' with
    | nil => exact absurd h.symm (hmode _ _)
    | cons d' ds' => exact gap_front_cancel [.word "mut"] (.word setName) h

/-- **What follows the host tells the variant and the descriptors.** -/
theorem followsHost_cancel {s : Surroundings} (hs : StartsPath s.runtime) {v v' : Variant} {ds ds' : List Descriptor}
    (hds : ∀ d ∈ ds, List.Forall₂ Fills d.kind.slots d.arguments)
    (hds' : ∀ d ∈ ds', List.Forall₂ Fills d.kind.slots d.arguments) {after after' : List Lexeme}
    (hafter : FollowsHost s v ds after) (hafter' : FollowsHost s v' ds' after')
    (h : following after = following after') : v = v' ∧ ds = ds' := by
  -- a bracket ends the parameters of one variant, a comma continues those of the other
  have hvariant : ∀ more more', following (.closing .round :: more) ≠ following (comma :: more') := by
    intro more more' heq
    have hdraws : following (.closing .round :: more) = textChars (.closing .round :: more) := rfl
    rw [hdraws, following_cons rfl, textChars_cons] at heq
    have hchars := (List.cons.inj heq).1
    exact absurd hchars (by decide)
  cases hafter with
  | direct tail hadditions =>
    cases hafter' with
    | direct tail' hadditions' =>
      have hmode := gap_front_cancel (.closing .round :: resultFront) (.word "let") h
      have hset := gap_front_cancel (equals :: newSetCode s) semicolon (mode_cancel hmode)
      exact ⟨rfl, additions_cancel hs hds hds' hadditions hadditions' hset⟩
    | reflective tail' => exact absurd h (hvariant _ _)
  | reflective tail =>
    cases hafter' with
    | direct tail' hadditions' => exact absurd h.symm (hvariant _ _)
    | reflective tail' => exact ⟨rfl, rfl⟩

end WiringUnit

/-! ## Faithfulness -/

/-- The documentation of a unit names its host. -/
theorem host_of_doc_eq {f g : Form} {options : Options}
    (h : (WiringUnit.ofForm f f.descriptors options).doc = (WiringUnit.ofForm g g.descriptors options).doc) :
    f.host = g.host := by
  have hdoc : "Validation wiring for `" ++ f.host ++ "`. Generated by formwire, do not modify." =
      "Validation wiring for `" ++ g.host ++ "`. Generated by formwire, do not modify." := h
  rw [← String.toList_inj, String.toList_append, String.toList_append, String.toList_append, String.toList_append,
    List.append_left_inj, List.append_right_inj] at hdoc
  exact String.toList_inj.1 hdoc

/-- Descriptors of fields whose names are identifiers as they are written fill their slots. -/
theorem forall₂_fills_of_mem {form : Form} (hnames : ∀ field ∈ form.fields, identifier? field.name = some field.name) :
    ∀ d ∈ form.descriptors, List.Forall₂ Fills d.kind.slots d.arguments := by
  intro d hd
  obtain ⟨field, hfield, hdescriptor⟩ := List.mem_filterMap.1 hd
  exact forall₂_fills_of_descriptor? hnames hfield hdescriptor

theorem eq_ok_of_mapError_eq_ok {ε ε' α : Type} {x : Except ε α} {f : ε → ε'} {a : α} (h : x.mapError f = .ok a) :
    x = .ok a := by
  cases x with
  | error e => cases h
  | ok b =>
    cases h
    rfl

theorem WiringUnit.pathCode_eq_ok {text : String} {p : PathCode} (h : pathCode text = .ok p) : path? text = some p := by
  unfold pathCode at h
  split at h
  · next hpath =>
    cases h
    exact hpath
  · cases h

/-- **Expansion of a form** writes the code of its unit. -/
theorem Form.expand_eq_ok {form : Form} {options : Options} {text : String} (h : form.expand options = .ok text) :
    ∃ runtime host code, form.check = .ok () ∧ path? options.runtimePath = some runtime ∧ path? form.host = some host ∧
      (WiringUnit.ofForm form form.descriptors options).bodyCode ⟨WiringUnit.runtimeCode runtime, host.code⟩ =
        .ok code ∧
      text = Lexeme.text code := by
  unfold Form.expand at h
  obtain ⟨unit, hunit, h⟩ := bind_eq_ok_iff.1 h
  obtain ⟨code, hcode, h⟩ := bind_eq_ok_iff.1 h
  have htext : Lexeme.text code = text := Except.ok.inj h
  obtain ⟨hcheck, rfl⟩ := Form.compile_eq_ok_iff.1 (eq_ok_of_mapError_eq_ok hunit)
  have hwritten := eq_ok_of_mapError_eq_ok hcode
  unfold WiringUnit.code at hwritten
  obtain ⟨runtime, hruntime, hwritten⟩ := bind_eq_ok_iff.1 hwritten
  obtain ⟨host, hhost, hbody⟩ := bind_eq_ok_iff.1 hwritten
  exact ⟨runtime, host, code, hcheck, WiringUnit.pathCode_eq_ok hruntime, WiringUnit.pathCode_eq_ok hhost, hbody,
    htext.symm⟩

/-- **Code is faithful to the plan.** Two forms whose members are identifiers as they are written, expanded with the
same options to the same text, have one plan: the unit's name, the variant and all descriptors are the same. -/
theorem Form.plan_eq_of_expand_eq {f g : Form} {options : Options} {text : String}
    (hf : ∀ field ∈ f.fields, identifier? field.name = some field.name)
    (hg : ∀ field ∈ g.fields, identifier? field.name = some field.name)
    (hcodef : f.expand options = .ok text) (hcodeg : g.expand options = .ok text) :
    ∃ plan, f.plan options = .ok plan ∧ g.plan options = .ok plan := by
  obtain ⟨runtime, host, code, hcheck, hruntime, hhost, hcode, htext⟩ := Form.expand_eq_ok hcodef
  obtain ⟨runtime', host', code', hcheck', hruntime', hhost', hcode', htext'⟩ := Form.expand_eq_ok hcodeg
  have hsame : textChars code = textChars code' := by
    have hboth := htext.symm.trans htext'
    exact String.ofList_injective hboth
  obtain ⟨name, after, hname, hafter, rfl⟩ := WiringUnit.exists_followsHost hcode
  obtain ⟨name', after', hname', hafter', rfl⟩ := WiringUnit.exists_followsHost hcode'
  -- the documentation names the host, and with it all that is written before the constructor
  have hequals := front_cancel _ WiringUnit.equals hsame
  have hdocumentation := gap_cancel (standsApart_literal _) (standsApart_literal _) hequals
  obtain ⟨hdoc, hbehind⟩ := text_cancel hdocumentation
  have hhosts : f.host = g.host := host_of_doc_eq hdoc
  have hunits : f.unitName options = g.unitName options := by
    unfold Form.unitName
    rw [hhosts]
  rw [hruntime] at hruntime'
  cases hruntime'
  rw [hhosts, hhost'] at hhost
  cases hhost
  rw [hunits, hname'] at hname
  cases hname
  -- then comes what the forms may differ in
  have hallowance := gap_front_cancel WiringUnit.allowance.dropLast (.closing .square) hbehind
  have hstruct := WiringUnit.visibility_cancel hallowance
  have hconstructor := gap_front_cancel (WiringUnit.unitFront _ name ++ WiringUnit.constructorFront _) (.mark '>' false)
    (by simpa using hstruct)
  obtain ⟨hvariant, hdescriptors⟩ := WiringUnit.followsHost_cancel (WiringUnit.startsPath_runtimeCode hruntime)
    (forall₂_fills_of_mem hf) (forall₂_fills_of_mem hg) hafter hafter' hconstructor
  refine ⟨⟨f.unitName options, f.variant options, f.descriptors⟩, ?_, ?_⟩
  · unfold Form.plan
    rw [hcheck]
    rfl
  · unfold Form.plan
    rw [hcheck', hunits, hvariant, hdescriptors]
    rfl

/-- A form with one field. -/
def motto : Form where
  host := "forms::Motto"
  fields := [{ name := "line", rule := .length (-1) 9 true, messageText := "say \"it\"" }]
  validateAction := some "send"
  onSuccess := "on_valid"

/-- The form above with a confirmation that has no partner. -/
def mottoAgain : Form :=
  { motto with fields := motto.fields ++ [{ name := "again", rule := .confirmEmail }] }

/-- The two forms above expand to one text, and have one plan. -/
theorem plan_eq_motto :
    (∀ field ∈ motto.fields, identifier? field.name = some field.name) ∧
      (∀ field ∈ mottoAgain.fields, identifier? field.name = some field.name) ∧
      ∃ text, motto.expand {} = .ok text ∧ mottoAgain.expand {} = .ok text ∧
        ∃ plan, motto.plan {} = .ok plan ∧ mottoAgain.plan {} = .ok plan := by
  have hnames : ∀ field ∈ motto.fields, identifier? field.name = some field.name := by decide
  have hnamesAgain : ∀ field ∈ mottoAgain.fields, identifier? field.name = some field.name := by decide
  have hcheck : motto.check = .ok () := rfl
  have hreadable : firstUnreadable? (motto.writtenTexts {}) = none := by decide +kernel
  obtain ⟨text, htext⟩ := (motto.exists_expand_iff {}).2 ⟨hcheck, hreadable⟩
  have hcompile : mottoAgain.compile {} = motto.compile {} := rfl
  have htextAgain : mottoAgain.expand {} = .ok text := by
    rw [← htext]
    unfold Form.expand
    rw [hcompile]
  exact ⟨hnames, hnamesAgain, text, htext, htextAgain, Form.plan_eq_of_expand_eq hnames hnamesAgain htext htextAgain⟩

end FormWiring
