import FormWiring.Proofs.Assembly
import FormWiring.Proofs.Clicks

/-!
# Which actions keep their handlers

A constructor wires the validating action first and the clearing action after it, and an element has one handler, the
last that was installed on it. So both actions keep their handlers as long as they are different members; when they
are one, the clearing handler replaces the validating one.

A member may be written in more than one way, so names are compared by the members they stand for.

Main statement: `keepsActions_iff`.
-/

set_option autoImplicit false

namespace FormWiring.Execution

open WiringUnit

/-! ## Wirings -/

/-- **Wiring that a call makes**, if it makes one: the listener that is called, and the member of the host that it is
given. -/
def wiring? : Callee × List Expr → Option (String × String)
  | (.associated listener, _ :: .ref (.field (.var host) member) :: _) =>
    if host = targetName then some (listener, member) else none
  | _ => none

/-- **Wirings of statements**, in order. -/
def wirings (body : List Stmt) : List (String × String) :=
  (calls body).filterMap wiring?

/-- A direct constructor wires the declared actions, the validating one first, and nothing else. -/
theorem wirings_directConstructor (form : Form) (ds : List Descriptor) :
    wirings (directConstructor form ds).body =
      form.validateAction.toList.map (fun member => (validateListenerName, member)) ++
        form.clearAction.toList.map (fun member => (clearListenerName, member)) := by
  unfold wirings
  rw [body_directConstructor, calls_append, calls_building, List.nil_append, calls_cons]
  unfold wiring
  cases form.validateAction <;> cases form.clearAction <;> rfl

section Members

variable {Member : Type} [DecidableEq Member] (member : String → Member)

/-! ## Handlers left -/

/-- **Element that a name stands for**: the member of the host, however it was written. -/
def Element.isNamed (name : String) : Element → Bool
  | .member written => decide (member written = member name)
  | .view _ => false

/-- **Handler left** on the member that a name stands for: the one installed on it last, under whatever name. -/
def World.handlerLeft? (w : World) (name : String) : Option Handler :=
  (w.handlers.find? fun entry => entry.1.isNamed member name).map (·.2)

/-- The handler installed last on a member is the one that is left on it. -/
theorem handlerLeft?_install (w : World) (written name : String) (h : Handler) :
    (w.install (.member written) h).handlerLeft? member name =
      if member written = member name then some h else w.handlerLeft? member name := by
  unfold World.handlerLeft? World.install
  dsimp only
  rw [List.find?_cons]
  by_cases hsame : member written = member name
  · have hnamed : (Element.member written).isNamed member name = true := decide_eq_true hsame
    rw [if_pos hsame, hnamed]
    rfl
  · have hnamed : (Element.member written).isNamed member name = false := decide_eq_false hsame
    rw [if_neg hsame, hnamed, List.find?_filter]
    -- the entries that an installation removes are on another member
    have hkept : (fun entry : Element × Handler =>
        decide (decide (entry.1 ≠ .member written) = true ∧ entry.1.isNamed member name = true)) =
          fun entry => entry.1.isNamed member name := by
      funext entry
      by_cases he : entry.1 = .member written
      · simp [he, hnamed]
      · simp [he]
    rw [hkept]

theorem handlerLeft?_installOn (w : World) (action : Option String) (h : Handler) (name : String) :
    (w.installOn action h).handlerLeft? member name =
      if action.map member = some (member name) then some h else w.handlerLeft? member name := by
  cases action with
  | none => rfl
  | some written =>
    unfold World.installOn
    rw [handlerLeft?_install]
    exact if_congr (by simp) rfl rfl

/-- **Handlers left by the entry point**: the clearing one where it was declared, then the validating one. -/
theorem handlerLeft?_wired (form : Form) (vs : List Validator) (s : Screen) (name : String) :
    (World.wired form vs { screen := s }).handlerLeft? member name =
      if form.clearAction.map member = some (member name) then some clearHandler
      else if form.validateAction.map member = some (member name) then some (validateHandler form)
      else none := by
  unfold World.wired
  rw [handlerLeft?_installOn, handlerLeft?_installOn]
  rfl

theorem validateHandler_ne_clearHandler (form : Form) : validateHandler form ≠ clearHandler := by
  intro h
  have hcaptures := congrArg Handler.capturesTarget h
  cases hcaptures

/-! ## The statement -/

/-- **Different actions**: no member is declared both to validate and to clear. -/
def DifferentActions (form : Form) : Prop :=
  ∀ a b, form.validateAction = some a → form.clearAction = some b → member a ≠ member b

/-- **Actions kept** by a constructor and the world it leaves: no member is wired twice, and each declared action has
its own handler left. -/
structure KeepsActions (form : Form) (body : List Stmt) (w : World) : Prop where
  once : ((wirings body).map fun wiring => member wiring.2).Nodup
  validate : ∀ a, form.validateAction = some a → w.handlerLeft? member a = some (validateHandler form)
  clear : ∀ b, form.clearAction = some b → w.handlerLeft? member b = some clearHandler

/-- **Which actions are kept.** A form compiled to the direct variant has a constructor that wires both declared
actions, after all validators were added. They are kept exactly when they are different members; if they are one, the
clearing handler is left on it. -/
theorem keepsActions_iff {form : Form} {options : Options} {unit : WiringUnit}
    (hcompile : form.compile options = .ok unit) (hdirect : unit.variant = .direct) (lookup : Int32 → String)
    (s : Screen) :
    ∃ new w, unit.method? "new" = some new ∧ World.init? unit lookup { screen := s } = some w ∧
      wirings new.body = form.validateAction.toList.map (fun a => (validateListenerName, a)) ++
        form.clearAction.toList.map (fun b => (clearListenerName, b)) ∧
      (∃ front back, new.body = front ++ shareSet :: back ∧ calls front = [] ∧ additions back = []) ∧
      (KeepsActions member form new.body w ↔ DifferentActions member form) ∧
      (∀ a b, form.validateAction = some a → form.clearAction = some b → member a = member b →
        w.handlerLeft? member a = some clearHandler) := by
  obtain ⟨-, rfl⟩ := Form.compile_eq_ok_iff.1 hcompile
  have hvs := mapM_ofDescriptor?_resolve lookup form.fields
  set vs := form.fields.filterMap (Field.validator? lookup form.fields)
  have hleft := handlerLeft?_wired member form vs s
  refine ⟨_, _, method?_new hdirect, World.init?_ofForm_direct lookup hdirect hvs _, wirings_directConstructor form _,
    (constructs_directConstructor form _).phases, ⟨?_, ?_⟩, ?_⟩
  · rintro ⟨-, hvalidate, -⟩ a b ha hb hsame
    -- one member for both actions is left the clearing handler
    have hkept := hvalidate a ha
    rw [hleft, hb, Option.map_some, if_pos (congrArg some hsame.symm)] at hkept
    exact validateHandler_ne_clearHandler form (Option.some.inj hkept).symm
  · intro hdifferent
    refine ⟨?_, ?_, ?_⟩
    · -- at most two wirings, which only both being declared could make of one member
      rw [wirings_directConstructor, List.map_append, List.map_map, List.map_map]
      cases hv : form.validateAction with
      | none => cases form.clearAction <;> simp
      | some a =>
        cases hc : form.clearAction with
        | none => simp
        | some b => simpa using hdifferent a b hv hc
    · intro a ha
      have hother : form.clearAction.map member ≠ some (member a) := by
        intro h
        obtain ⟨b, hb, hsame⟩ := Option.map_eq_some_iff.1 h
        exact hdifferent a b ha hb hsame.symm
      rw [hleft, if_neg hother, ha, Option.map_some, if_pos rfl]
    · intro b hb
      rw [hleft, hb, Option.map_some, if_pos rfl]
  · intro a b _ hb hsame
    rw [hleft, hb, Option.map_some, if_pos (congrArg some hsame.symm)]

end Members

/-- A form with one member for both actions. -/
def toggle : Form where
  host := "Toggle"
  validateAction := some "go"
  clearAction := some "go"
  onSuccess := "on_valid"

/-- The form above loses its validating action. -/
theorem not_keepsActions_toggle :
    toggle.compile {} = .ok (.ofForm toggle [] {}) ∧ (WiringUnit.ofForm toggle [] {}).variant = .direct ∧
      ∃ new w, (WiringUnit.ofForm toggle [] {}).method? "new" = some new ∧
        World.init? (.ofForm toggle [] {}) (fun _ => "") { screen := {} } = some w ∧
        ¬ KeepsActions id toggle new.body w := by
  have hcompile : toggle.compile {} = .ok (.ofForm toggle [] {}) := rfl
  obtain ⟨new, w, hnew, hinit, -, -, hkeeps, -⟩ := keepsActions_iff id hcompile rfl (fun _ => "") {}
  have hone : ¬ DifferentActions id toggle := fun h => h "go" "go" rfl rfl rfl
  exact ⟨hcompile, rfl, new, w, hnew, hinit, fun h => hone (hkeeps.1 h)⟩

end FormWiring.Execution
