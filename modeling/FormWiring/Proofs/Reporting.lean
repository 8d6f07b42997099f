import FormWiring.Session
import Mathlib.Data.List.Induction

/-!
# What reports leave behind

Evaluating a set is one list of reports, worked off in order: a report overwrites what its input shows and touches
nothing else. Two facts carry everything said about sets: reports depend on the texts only, and no report changes a
text. So the list of reports is known before the first of them is made, and an input shows the last one made on it.

Main statements: `ValidatorSet.evaluate_eq`, `Screen.error_foldl_report`, `ValidatorSet.error_clear`.
-/

set_option autoImplicit false

namespace FormWiring

/-! ## Screens -/

namespace Screen

/-- A change that keeps a part of an input keeps that part of all inputs. -/
theorem apply_input_update {β : Type} (part : Input → β) (f : Input → Input) (h : ∀ i, part (f i) = part i)
    (s : Screen) (name other : String) : part ((s.update name f).input other) = part (s.input other) := by
  rw [input_update]
  split
  · next heq => rw [h, heq]
  · rfl

/-- What every step keeps, many steps keep. -/
theorem apply_foldl {α β : Type} (part : Screen → β) (step : Screen → α → Screen)
    (h : ∀ s a, part (step s a) = part s) (l : List α) (s : Screen) : part (l.foldl step s) = part s := by
  induction l generalizing s with
  | nil => rfl
  | cons a l ih => rw [List.foldl_cons, ih, h]

/-- Showing an error keeps every text. -/
@[simp] theorem text_setError (s : Screen) (name other : String) (error : Option String) :
    (s.setError name error).text other = s.text other :=
  apply_input_update Input.text (fun i => { i with error := error }) (fun _ => rfl) s name other

/-- An input shows what it was last told to show. -/
theorem error_setError (s : Screen) (name other : String) (error : Option String) :
    (s.setError name error).error other = if other = name then error else s.error other := by
  unfold setError Screen.error
  rw [input_update]
  split <;> rfl

/-- Showing an error keeps what a change of text does. -/
@[simp] theorem dismisses_setError (s : Screen) (name other : String) (error : Option String) :
    ((s.setError name error).input other).dismisses = (s.input other).dismisses :=
  apply_input_update Input.dismisses (fun i => { i with error := error }) (fun _ => rfl) s name other

/-- Watching an input keeps every text. -/
@[simp] theorem text_watch (s : Screen) (name other : String) : (s.watch name).text other = s.text other :=
  apply_input_update Input.text (fun i => { i with dismisses := true }) (fun _ => rfl) s name other

/-- A watched input stays watched, and the others are as they were. -/
theorem dismisses_watch (s : Screen) (name other : String) :
    ((s.watch name).input other).dismisses = (decide (other = name) || (s.input other).dismisses) := by
  unfold watch
  rw [input_update]
  split
  · next h => simp [h]
  · next h => simp [h]

/-- A text that is entered replaces the old one. -/
theorem text_enter (s : Screen) (name text other : String) :
    (s.enter name text).text other = if other = name then text else s.text other := by
  unfold enter Screen.text
  rw [input_update]
  split <;> rfl

/-- A text that is entered hides the input's error if that was asked for. -/
theorem error_enter (s : Screen) (name text other : String) :
    (s.enter name text).error other =
      if other = name ∧ (s.input name).dismisses = true then none else s.error other := by
  unfold enter Screen.error
  rw [input_update]
  by_cases h : other = name
  · subst h
    simp
  · simp [h]

/-- Entering a text keeps what a change of text does. -/
@[simp] theorem dismisses_enter (s : Screen) (name text other : String) :
    ((s.enter name text).input other).dismisses = (s.input other).dismisses :=
  apply_input_update Input.dismisses
    (fun i => { i with text := text, error := if i.dismisses then none else i.error }) (fun _ => rfl) s name other

/-- **Equal texts** in every input. What the inputs show may differ. -/
def SameTexts (s t : Screen) : Prop :=
  ∀ name, s.text name = t.text name

theorem SameTexts.symm {s t : Screen} (h : s.SameTexts t) : t.SameTexts s :=
  fun name => (h name).symm

theorem SameTexts.trans {s t u : Screen} (h : s.SameTexts t) (h' : t.SameTexts u) : s.SameTexts u :=
  fun name => (h name).trans (h' name)

end Screen

/-! ## Reports -/

/-- **What a report puts on its input**: nothing, or the message. -/
def Report.shown (r : Report) : Option String :=
  if r.accepted then none else some r.binding.message

/-- **Last report on an input**, if there was one. -/
def lastReport? (name : String) (rs : List Report) : Option Report :=
  rs.reverse.find? fun r => r.binding.input == name

theorem lastReport?_append_singleton (name : String) (rs : List Report) (r : Report) :
    lastReport? name (rs ++ [r]) = if r.binding.input = name then some r else lastReport? name rs := by
  unfold lastReport?
  rw [List.reverse_append, List.reverse_singleton, List.singleton_append, List.find?_cons]
  by_cases h : r.binding.input = name
  · rw [if_pos h, beq_iff_eq.2 h]
  · rw [if_neg h, beq_eq_false_iff_ne.2 h]

/-- There is a last report on an input exactly when some report is made on it. -/
theorem lastReport?_isSome_iff (name : String) (rs : List Report) :
    (lastReport? name rs).isSome = true ↔ ∃ r ∈ rs, r.binding.input = name := by
  unfold lastReport?
  rw [List.find?_isSome]
  simp

theorem Screen.report_eq (s : Screen) (r : Report) : s.report r = s.setError r.binding.input r.shown := rfl

/-- Reports keep every text. -/
theorem Screen.text_foldl_report (rs : List Report) (s : Screen) (name : String) :
    (rs.foldl Screen.report s).text name = s.text name :=
  apply_foldl (fun s => s.text name) report (fun s r => text_setError s r.binding.input name r.shown) rs s

/-- Reports keep what a change of text does. -/
theorem Screen.dismisses_foldl_report (rs : List Report) (s : Screen) (name : String) :
    ((rs.foldl Screen.report s).input name).dismisses = (s.input name).dismisses :=
  apply_foldl (fun s => (s.input name).dismisses) report
    (fun s r => dismisses_setError s r.binding.input name r.shown) rs s

/-- **After reports** an input shows the last one made on it, or what it showed before. -/
theorem Screen.error_foldl_report (rs : List Report) (s : Screen) (name : String) :
    (rs.foldl Screen.report s).error name = ((lastReport? name rs).map Report.shown).getD (s.error name) := by
  induction rs using List.reverseRecOn with
  | nil => rfl
  | append_singleton rs r ih =>
    rw [List.foldl_append, List.foldl_cons, List.foldl_nil, Screen.report_eq, Screen.error_setError,
      lastReport?_append_singleton]
    by_cases h : r.binding.input = name
    · rw [if_pos h.symm, if_pos h]
      rfl
    · rw [if_neg (Ne.symm h), if_neg h, ih]

/-! ## Validators -/

namespace Validator

/-- **Inputs a validator reports on**: its own one, the confirming one of two, both ends of a range. -/
def reportedInputs (v : Validator) : List String :=
  v.bindings.map Binding.input

/-- A validator makes one report on each of its bindings, whatever is on the screen. -/
theorem map_binding_reports (s : Screen) (v : Validator) :
    (v.reports s).map Report.binding = v.bindings := by
  cases v <;> rfl

/-- Reports depend on the texts only. -/
theorem reports_congr {s t : Screen} (h : s.SameTexts t) (v : Validator) : v.reports s = v.reports t := by
  cases v with
  | single b check => simp only [reports, h b.input]
  | confirmation confirmed b => simp only [reports, h b.input, h confirmed]
  | between start limit => simp only [reports, numberIn?, h start.input, h limit.input]

theorem failure?_congr {s t : Screen} (h : s.SameTexts t) (v : Validator) :
    v.failure? s = v.failure? t := by
  unfold failure?
  rw [reports_congr h]

theorem accepts_congr {s t : Screen} (h : s.SameTexts t) (v : Validator) :
    v.accepts s = v.accepts t := by
  unfold accepts
  rw [reports_congr h]

/-- A validator accepts exactly when it gives no message. -/
theorem isNone_failure? (s : Screen) (v : Validator) : (v.failure? s).isNone = v.accepts s := by
  unfold failure? accepts
  rw [Option.isNone_map, Bool.eq_iff_iff]
  simp

/-- Evaluating keeps every text. -/
theorem sameTexts_evaluate (s : Screen) (v : Validator) : (v.evaluate s).SameTexts s :=
  fun name => Screen.text_foldl_report (v.reports s) s name

end Validator

/-! ## Sets -/

/-- **Evaluation in order** is the work on one list of reports, all of them fixed by the first screen. -/
theorem evaluateAll_fst (s : Screen) (vs : List Validator) :
    (evaluateAll s vs).1 = (vs.flatMap (Validator.reports s)).foldl Screen.report s := by
  -- the induction moves to the screen after the first validator, whose texts are the same
  suffices h : ∀ t, t.SameTexts s →
      (evaluateAll t vs).1 = (vs.flatMap (Validator.reports s)).foldl Screen.report t from
    h s fun _ => rfl
  induction vs with
  | nil => exact fun _ _ => rfl
  | cons v vs ih =>
    intro t ht
    have hv : v.evaluate t = (v.reports s).foldl Screen.report t := by
      unfold Validator.evaluate
      rw [Validator.reports_congr ht]
    rw [List.flatMap_cons, List.foldl_append, ← hv]
    exact ih _ ((Validator.sameTexts_evaluate t v).trans ht)

/-- **Messages of an evaluation**: one for each validator that fails on the texts it found. -/
theorem evaluateAll_snd (s : Screen) (vs : List Validator) :
    (evaluateAll s vs).2 = vs.filterMap (Validator.failure? s) := by
  suffices h : ∀ t, t.SameTexts s → (evaluateAll t vs).2 = vs.filterMap (Validator.failure? s) from
    h s fun _ => rfl
  induction vs with
  | nil => exact fun _ _ => rfl
  | cons v vs ih =>
    intro t ht
    have hrest := ih _ ((Validator.sameTexts_evaluate t v).trans ht)
    have hfirst : v.failure? t = v.failure? s := Validator.failure?_congr ht v
    simp only [evaluateAll, hrest, hfirst, List.filterMap_cons]
    cases v.failure? s <;> rfl

theorem isEmpty_filterMap_failure? (s : Screen) (vs : List Validator) :
    (vs.filterMap (Validator.failure? s)).isEmpty = vs.all (Validator.accepts s) := by
  induction vs with
  | nil => rfl
  | cons v vs ih =>
    rw [List.all_cons, ← Validator.isNone_failure?, ← ih, List.filterMap_cons]
    cases v.failure? s <;> simp

namespace ValidatorSet

/-- **Evaluation of a set**, read off the texts: the verdict, the reports worked off, one message a failure. -/
theorem evaluate_eq (set : ValidatorSet) (s : Screen) :
    set.evaluate s = (set.validators.all (Validator.accepts s),
      (set.validators.flatMap (Validator.reports s)).foldl Screen.report s,
      { set with errors := set.validators.filterMap (Validator.failure? s) }) := by
  unfold evaluate
  rw [← isEmpty_filterMap_failure?, ← evaluateAll_fst, ← evaluateAll_snd]

/-- Some report is made on an input exactly when it is a reported input of some validator. -/
theorem lastReport?_isSome_iff_reported (s : Screen) (vs : List Validator) (name : String) :
    (lastReport? name (vs.flatMap (Validator.reports s))).isSome = true ↔
      ∃ v ∈ vs, name ∈ v.reportedInputs := by
  rw [lastReport?_isSome_iff]
  constructor
  · rintro ⟨r, hr, rfl⟩
    obtain ⟨v, hv, hrv⟩ := List.mem_flatMap.1 hr
    refine ⟨v, hv, List.mem_map.2 ⟨r.binding, ?_, rfl⟩⟩
    rw [← Validator.map_binding_reports s v]
    exact List.mem_map_of_mem hrv
  · rintro ⟨v, hv, hname⟩
    obtain ⟨b, hb, rfl⟩ := List.mem_map.1 hname
    rw [← Validator.map_binding_reports s v] at hb
    obtain ⟨r, hr, rfl⟩ := List.mem_map.1 hb
    exact ⟨r, List.mem_flatMap.2 ⟨v, hv, hr⟩, rfl⟩

/-! ## Clearing -/

theorem text_foldl_hide (bs : List Binding) (s : Screen) (name : String) :
    (bs.foldl (fun s b => s.setError b.input none) s).text name = s.text name :=
  Screen.apply_foldl (fun s => s.text name) _ (fun s b => Screen.text_setError s b.input name none) bs s

theorem dismisses_foldl_hide (bs : List Binding) (s : Screen) (name : String) :
    ((bs.foldl (fun s b => s.setError b.input none) s).input name).dismisses = (s.input name).dismisses :=
  Screen.apply_foldl (fun s => (s.input name).dismisses) _
    (fun s b => Screen.dismisses_setError s b.input name none) bs s

theorem error_foldl_hide (bs : List Binding) (s : Screen) (name : String) :
    (bs.foldl (fun s b => s.setError b.input none) s).error name =
      if name ∈ bs.map Binding.input then none else s.error name := by
  induction bs generalizing s with
  | nil => rfl
  | cons b bs ih =>
    rw [List.foldl_cons, ih, Screen.error_setError, List.map_cons]
    by_cases h : name = b.input
    · simp [h]
    · simp [h]

/-- Clearing validators one after the other hides the error of each of their bindings. -/
theorem foldl_clear_eq (vs : List Validator) (s : Screen) :
    vs.foldl Validator.clear s =
      (vs.flatMap Validator.bindings).foldl (fun s b => s.setError b.input none) s := by
  induction vs generalizing s with
  | nil => rfl
  | cons v vs ih =>
    rw [List.foldl_cons, ih, List.flatMap_cons, List.foldl_append]
    rfl

/-- Clearing keeps every text. -/
theorem text_clear (set : ValidatorSet) (s : Screen) (name : String) :
    (set.clear s).1.text name = s.text name := by
  unfold clear
  rw [foldl_clear_eq, text_foldl_hide]

/-- Clearing keeps what a change of text does. -/
theorem dismisses_clear (set : ValidatorSet) (s : Screen) (name : String) :
    ((set.clear s).1.input name).dismisses = (s.input name).dismisses := by
  unfold clear
  rw [foldl_clear_eq, dismisses_foldl_hide]

/-- **After clearing** every reported input shows nothing, and the others show what they did. -/
theorem error_clear (set : ValidatorSet) (s : Screen) (name : String) :
    (set.clear s).1.error name =
      if ∃ v ∈ set.validators, name ∈ v.reportedInputs then none else s.error name := by
  unfold clear
  rw [foldl_clear_eq, error_foldl_hide]
  refine if_congr ?_ rfl rfl
  simp only [Validator.reportedInputs, List.mem_map, List.mem_flatMap]
  constructor
  · rintro ⟨b, ⟨v, hv, hb⟩, hname⟩
    exact ⟨v, hv, b, hb, hname⟩
  · rintro ⟨v, hv, b, hb, hname⟩
    exact ⟨b, ⟨v, hv, hb⟩, hname⟩

end ValidatorSet

/-! ## Binding -/

namespace Screen

/-- **Screen with a binding's wish noted**: its input is watched if its error is to be dismissed. -/
def heed (s : Screen) (b : Binding) : Screen :=
  if b.autoDismiss then s.watch b.input else s

theorem text_heed (s : Screen) (b : Binding) (name : String) : (s.heed b).text name = s.text name := by
  unfold heed
  split
  · exact text_watch s b.input name
  · rfl

theorem dismisses_heed (s : Screen) (b : Binding) (name : String) :
    ((s.heed b).input name).dismisses = true ↔
      (b.autoDismiss = true ∧ b.input = name) ∨ (s.input name).dismisses = true := by
  unfold heed
  split
  · next h =>
    simp only [dismisses_watch, Bool.or_eq_true, decide_eq_true_eq, h, true_and]
    exact or_congr_left eq_comm
  · next h => simp [h]

theorem attachAll_eq (vs : List Validator) (s : Screen) :
    s.attachAll vs = (vs.flatMap Validator.bindings).foldl heed s := by
  unfold attachAll
  induction vs generalizing s with
  | nil => rfl
  | cons v vs ih =>
    rw [List.foldl_cons, ih, List.flatMap_cons, List.foldl_append]
    rfl

/-- Binding validators to a screen keeps every text. -/
theorem text_attachAll (vs : List Validator) (s : Screen) (name : String) :
    (s.attachAll vs).text name = s.text name := by
  rw [attachAll_eq]
  exact apply_foldl (fun s => s.text name) heed (fun s b => text_heed s b name) (vs.flatMap Validator.bindings) s

/-- **After binding** a change of text hides the error of an input exactly when some validator asked for it, or it
was so before. -/
theorem dismisses_attachAll (vs : List Validator) (s : Screen) (name : String) :
    ((s.attachAll vs).input name).dismisses = true ↔
      (∃ v ∈ vs, ∃ b ∈ v.bindings, b.autoDismiss = true ∧ b.input = name) ∨
        (s.input name).dismisses = true := by
  have hbindings : ∀ (bs : List Binding) (t : Screen), ((bs.foldl heed t).input name).dismisses = true ↔
      (∃ b ∈ bs, b.autoDismiss = true ∧ b.input = name) ∨ (t.input name).dismisses = true := by
    intro bs
    induction bs with
    | nil => simp
    | cons b bs ih =>
      intro t
      simp only [List.foldl_cons, ih, dismisses_heed, List.mem_cons, exists_eq_or_imp, or_assoc, or_left_comm]
  rw [attachAll_eq, hbindings]
  simp only [List.mem_flatMap]
  refine or_congr_left ⟨?_, ?_⟩
  · rintro ⟨b, ⟨v, hv, hb⟩, h⟩
    exact ⟨v, hv, b, hb, h⟩
  · rintro ⟨v, hv, b, hb, h⟩
    exact ⟨b, ⟨v, hv, hb⟩, h⟩

end Screen

end FormWiring
