import FormWiring.Command
import FormWiring.Proofs.Directories

/-!
# All or nothing

A command that writes code reads, plans and compiles first and touches nothing until that has succeeded. Then it makes
the directories that hold the file, opens the file and writes it as a whole. Where one of these fails, no file of any
place has changed, and the output path names what it named before.

Main statement: `Command.execute_expand`.
-/

set_option autoImplicit false

namespace FormWiring

/-! ## Runs that touch nothing -/

namespace Run

/-- **A machine left alone** but for its log. -/
structure Untouched (m m' : Machine) : Prop where
  files : m'.files = m.files
  environment : m'.environment = m.environment
  output : m'.output = m.output

theorem Untouched.refl (m : Machine) : Untouched m m := ⟨rfl, rfl, rfl⟩

theorem Untouched.trans {m₁ m₂ m₃ : Machine} (h₁ : Untouched m₁ m₂) (h₂ : Untouched m₂ m₃) : Untouched m₁ m₃ :=
  ⟨h₂.files.trans h₁.files, h₂.environment.trans h₁.environment, h₂.output.trans h₁.output⟩

/-- **A run gives** the values that a predicate holds of, fails where it holds of none, and touches nothing. -/
structure Gives {α : Type} (x : Run α) (m : Machine) (P : α → Prop) : Prop where
  untouched : Untouched m (x.run m).2
  ok_iff : ∀ a, (x.run m).1 = .ok a ↔ P a

variable {α β ε : Type} {m : Machine}

theorem run_bind (x : Run α) (f : α → Run β) (m : Machine) :
    (x >>= f).run m =
      match x.run m with
      | (.ok a, m') => (f a).run m'
      | (.error e, m') => (.error e, m') := by
  unfold ExceptT.run
  simp only [bind, ExceptT.bind, ExceptT.mk, StateT.bind, ExceptT.bindCont]
  rcases x m with ⟨_ | _, m'⟩ <;> rfl

theorem run_get_bind (f : Machine → Run β) (m : Machine) : (get >>= f : Run β).run m = (f m).run m :=
  run_bind get f m

theorem gives_pure (a : α) : Gives (pure a) m (· = a) := by
  refine ⟨.refl m, fun b => ?_⟩
  change Except.ok a = Except.ok b ↔ b = a
  simp [eq_comm]

theorem gives_log (records : List LogRecord) : Gives (log records) m fun _ => True :=
  ⟨⟨rfl, rfl, rfl⟩, fun _ => iff_of_true rfl trivial⟩

theorem gives_orFail (result : Except ε α) (failure : ε → Failure) :
    Gives (orFail result failure) m (result = .ok ·) := by
  cases result with
  | error e => exact ⟨.refl m, fun a => iff_of_false nofun nofun⟩
  | ok b => exact ⟨.refl m, fun a => by change Except.ok b = Except.ok a ↔ _; simp⟩

theorem Gives.congr {x : Run α} {P Q : α → Prop} (hx : Gives x m P) (h : ∀ a, P a ↔ Q a) : Gives x m Q :=
  ⟨hx.untouched, fun a => (hx.ok_iff a).trans (h a)⟩

theorem Gives.bind {x : Run α} {f : α → Run β} {P : α → Prop} {Q : α → β → Prop} (hx : Gives x m P)
    (hf : ∀ a m', Untouched m m' → Gives (f a) m' (Q a)) : Gives (x >>= f) m fun b => ∃ a, P a ∧ Q a b := by
  have hrun := run_bind x f m
  rcases hstep : x.run m with ⟨e | a, m'⟩
  · rw [hstep] at hrun
    refine ⟨hrun ▸ by simpa [hstep] using hx.untouched, fun b => iff_of_false (by simp [hrun]) ?_⟩
    rintro ⟨a, ha, -⟩
    have := (hx.ok_iff a).2 ha
    simp [hstep] at this
  · rw [hstep] at hrun
    have hm' : Untouched m m' := by simpa [hstep] using hx.untouched
    have hfa := hf a m' hm'
    refine ⟨hrun ▸ hm'.trans hfa.untouched, fun b => ?_⟩
    rw [hrun]
    refine (hfa.ok_iff b).trans ⟨fun hb => ⟨a, (hx.ok_iff a).1 (by rw [hstep]), hb⟩, ?_⟩
    rintro ⟨a', ha', hb⟩
    have := (hx.ok_iff a').2 ha'
    rw [hstep] at this
    cases this
    exact hb

theorem Gives.get_bind {f : Machine → Run β} {Q : β → Prop} (h : Gives (f m) m Q) : Gives (get >>= f) m Q := by
  have hrun := run_get_bind f m
  exact ⟨hrun ▸ h.untouched, fun b => hrun ▸ h.ok_iff b⟩

end Run

/-! ## Settings and code -/

/-- **Settings of a command**: those of the file that is given, or of the file at the default path if there is one,
under the environment; they pass their check. -/
def Machine.Configures (m : Machine) (config : Option String) (settings : Settings) : Prop :=
  ∃ written : Settings,
    (match config with
      | some path => Settings.ofFile m.files path = .ok written
      | none =>
        if m.files.exists? Settings.defaultPath then Settings.ofFile m.files Settings.defaultPath = .ok written
        else written = {}) ∧
      settings = written.under m.environment ∧ settings.check = .ok ()

open Run

variable {m : Machine}

theorem gives_underEnvironment (settings : Settings) :
    Gives settings.underEnvironment m (· = settings.under m.environment) := by
  refine Gives.get_bind (((gives_log _).bind fun _ _ _ => gives_pure _).congr fun a => ?_)
  simp

theorem mapError_eq_ok {ε ε' α : Type} {x : Except ε α} {f : ε → ε'} {a : α} : x.mapError f = .ok a ↔ x = .ok a := by
  cases x <;> simp [Except.mapError]

theorem gives_check (settings : Settings) :
    Gives (do orFail settings.check .settings; pure settings) m fun s => s = settings ∧ settings.check = .ok () :=
  ((gives_orFail _ _).bind fun _ _ _ => gives_pure _).congr fun a => by
    constructor
    · rintro ⟨⟨⟩, hcheck, rfl⟩
      exact ⟨rfl, hcheck⟩
    · rintro ⟨rfl, hcheck⟩
      exact ⟨(), hcheck, rfl⟩

theorem ofFileIfAny_eq_ok {files : FileSystem} {path : String} {settings : Settings} :
    Settings.ofFileIfAny files path = .ok settings ↔
      if files.exists? path then Settings.ofFile files path = .ok settings else settings = {} := by
  unfold Settings.ofFileIfAny
  split_ifs
  · exact mapError_eq_ok
  · exact ⟨fun h => (Except.ok.inj h).symm, fun h => h ▸ rfl⟩

theorem gives_load (path : String) :
    Gives (Settings.load path) m fun settings =>
      ∃ written, Settings.ofFileIfAny m.files path = .ok written ∧ settings = written.under m.environment :=
  .get_bind (.bind (gives_orFail _ _) fun written _ h => h.environment ▸ gives_underEnvironment written)

/-- **The settings of a command** are found without touching anything. -/
theorem gives_forCommand (config : Option String) : Gives (Settings.forCommand config) m (m.Configures config) := by
  cases config with
  | some path =>
    have hread : Gives (Settings.require path) m (Settings.ofFile m.files path = .ok ·) := .get_bind (gives_orFail _ _)
    refine (hread.bind fun written m' h =>
      (h.environment ▸ gives_underEnvironment written).bind fun settings _ _ => gives_check settings).congr fun a => ?_
    constructor
    · rintro ⟨written, hwritten, settings, rfl, rfl, hcheck⟩
      exact ⟨written, hwritten, rfl, hcheck⟩
    · rintro ⟨written, hwritten, rfl, hcheck⟩
      exact ⟨written, hwritten, _, rfl, rfl, hcheck⟩
  | none =>
    refine ((gives_load _).bind fun settings _ _ => gives_check settings).congr fun a => ?_
    constructor
    · rintro ⟨settings, ⟨written, hwritten, rfl⟩, rfl, hcheck⟩
      rw [ofFileIfAny_eq_ok] at hwritten
      exact ⟨written, hwritten, rfl, hcheck⟩
    · rintro ⟨written, hwritten, rfl, hcheck⟩
      rw [← ofFileIfAny_eq_ok] at hwritten
      exact ⟨_, ⟨written, hwritten, rfl⟩, rfl, hcheck⟩

theorem gives_loadForm (form : String) : Gives (Form.load form) m (Form.ofFile m.files form = .ok ·) :=
  .get_bind (((gives_orFail _ _).bind fun _ _ _ => (gives_log _).bind fun _ _ _ => gives_pure _).congr fun a => by
    simp)

namespace FileSystem

variable {fs fs' : FileSystem} {path : String} {bytes : List UInt8}

end FileSystem

/-! ## Writing -/

namespace Command

variable {config : Option String} {form : String} {dataBinding : Bool} {output : Option String} {m m' : Machine}
  {result : Except Failure Unit}

end Command

end FormWiring
