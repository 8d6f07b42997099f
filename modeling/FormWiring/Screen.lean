/-!
# Screens

The inputs that validators look at: each has a text, may show an error, and hides it when its text changes if
some validator asked for that. An input that was never mentioned is empty and shows nothing.
-/

set_option autoImplicit false

namespace FormWiring

/-! ## Types -/

/-- **Input** of a screen. -/
structure Input where
  text : String := ""
  error : Option String := none
  /-- A change of the text hides the error. -/
  dismisses : Bool := false
  deriving DecidableEq, Repr, Inhabited

/-- **Screen**: inputs by name. -/
structure Screen where
  inputs : List (String × Input) := []
  deriving DecidableEq, Repr, Inhabited

namespace Screen

/-! ## Views -/

/-- **Input of a name.** -/
def input (s : Screen) (name : String) : Input :=
  (s.inputs.lookup name).getD {}

/-- **Text of an input.** -/
def text (s : Screen) (name : String) : String :=
  (s.input name).text

/-- **Error an input shows**, if any. -/
def error (s : Screen) (name : String) : Option String :=
  (s.input name).error

/-! ## Operations -/

/-- **Entries with one changed**; a missing one is added. -/
def change (f : Input → Input) (name : String) : List (String × Input) → List (String × Input)
  | [] => [(name, f {})]
  | (n, i) :: rest => if n = name then (n, f i) :: rest else (n, i) :: change f name rest

/-- **Screen with one input changed.** -/
def update (s : Screen) (name : String) (f : Input → Input) : Screen :=
  ⟨change f name s.inputs⟩

/-- **An input shows** an error, or none. -/
def setError (s : Screen) (name : String) (error : Option String) : Screen :=
  s.update name fun i => { i with error := error }

/-- **An input hides its error** from now on when its text changes. -/
def watch (s : Screen) (name : String) : Screen :=
  s.update name fun i => { i with dismisses := true }

/-- **A text is entered.** -/
def enter (s : Screen) (name text : String) : Screen :=
  s.update name fun i => { i with text := text, error := if i.dismisses then none else i.error }

/-! ## How operations change the view -/

theorem lookup_change (f : Input → Input) (name other : String) (entries : List (String × Input)) :
    (change f name entries).lookup other =
      if other = name then some (f ((entries.lookup name).getD {})) else entries.lookup other := by
  induction entries with
  | nil =>
    by_cases h : other = name
    · simp [change, h]
    · simp [change, List.lookup_cons, h, beq_eq_false_iff_ne.2 h]
  | cons e rest ih =>
    obtain ⟨n, i⟩ := e
    by_cases hn : n = name
    · subst hn
      by_cases h : other = n
      · simp [change, h]
      · simp [change, List.lookup_cons, h, beq_eq_false_iff_ne.2 h]
    · by_cases ho : other = n
      · subst ho
        simp [change, hn]
      · have hno : (other == n) = false := beq_eq_false_iff_ne.2 ho
        have hne : (name == n) = false := beq_eq_false_iff_ne.2 (Ne.symm hn)
        simp [change, hn, List.lookup_cons, hno, hne, ih]

/-- **Update** changes one input and leaves the others. -/
theorem input_update (s : Screen) (name other : String) (f : Input → Input) :
    (s.update name f).input other = if other = name then f (s.input name) else s.input other := by
  unfold update input
  rw [lookup_change]
  split <;> simp_all

end Screen

end FormWiring
