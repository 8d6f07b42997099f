import FormWiring.Action

/-!
# Which elements are selected

A scan keeps the first element of each role. It stops early only when both roles are taken, so what it leaves unread
could not have changed the selection, and it reads each element up to there once.

Main statements: `of_selectActions`, `selectActions_reads_until_complete`.
-/

set_option autoImplicit false

namespace FormWiring

/-- **First element of a role**, by position. -/
def firstOfRole? (roles : List (Option Action)) (action : Action) : Option Nat :=
  roles.findIdx? fun role => role == some action

theorem firstOfRole?_cons (role : Option Action) (roles : List (Option Action)) (action : Action) :
    firstOfRole? (role :: roles) action =
      if role = some action then some 0 else (firstOfRole? roles action).map (· + 1) := by
  unfold firstOfRole?
  rw [List.findIdx?_cons]
  by_cases h : role = some action
  · rw [if_pos h, if_pos (beq_iff_eq.2 h)]
  · rw [if_neg h, if_neg (mt beq_iff_eq.1 h)]

/-- One element is the first of one role at most. -/
theorem firstOfRole?_ne {roles : List (Option Action)} {a b : Action} {index : Nat}
    (ha : firstOfRole? roles a = some index) (hab : a ≠ b) : firstOfRole? roles b ≠ some index := by
  intro hb
  unfold firstOfRole? at ha hb
  obtain ⟨hlt, hrole, -⟩ := List.findIdx?_eq_some_iff_getElem.1 ha
  obtain ⟨_, hrole', -⟩ := List.findIdx?_eq_some_iff_getElem.1 hb
  exact hab (Option.some.inj ((beq_iff_eq.1 hrole).symm.trans (beq_iff_eq.1 hrole')))

namespace SelectedActions

/-- **Element selected** for an action. -/
def of (s : SelectedActions) : Action → Option Nat
  | .validate => s.validate
  | .clear => s.clear

/-- One more element is selected for its role, unless there is one already. -/
theorem of_see (s : SelectedActions) (index : Nat) (role : Option Action) (action : Action) :
    (s.see index role).of action = (s.of action).or (if role = some action then some index else none) := by
  cases role with
  | none => simp [see]
  | some a => cases a <;> cases action <;> simp [see, of]

theorem isSome_of_isComplete {s : SelectedActions} (h : s.isComplete = true) (action : Action) :
    (s.of action).isSome = true := by
  unfold isComplete at h
  rw [Bool.and_eq_true] at h
  cases action with
  | validate => exact h.1
  | clear => exact h.2

end SelectedActions

/-- A scan keeps what was selected before it, and selects the first elements of the other roles. -/
theorem of_scanActions (s : SelectedActions) (index : Nat) (roles : List (Option Action)) (action : Action) :
    (scanActions s index roles).1.of action =
      (s.of action).or ((firstOfRole? roles action).map (· + index)) := by
  induction roles generalizing s index with
  | nil => simp [scanActions, firstOfRole?]
  | cons role roles ih =>
    rw [firstOfRole?_cons, scanActions]
    by_cases hcomplete : (s.see index role).isComplete = true
    · -- the scan stops, and what is not read has no role that is still free
      have hsome := SelectedActions.isSome_of_isComplete hcomplete action
      rw [if_pos hcomplete]
      dsimp only
      rw [SelectedActions.of_see] at hsome ⊢
      by_cases hrole : role = some action
      · simp [hrole]
      · rw [if_neg hrole, Option.or_none] at hsome ⊢
        rw [Option.or_of_isSome hsome]
    · rw [if_neg hcomplete]
      dsimp only
      rw [ih, SelectedActions.of_see, Option.or_assoc]
      congr 1
      by_cases hrole : role = some action
      · simp [hrole]
      · rw [if_neg hrole, if_neg hrole, Option.none_or, Option.map_map]
        congr 1
        funext n
        change n + (index + 1) = n + 1 + index
        omega

/-- **Selection takes the first element of each role.** -/
theorem of_selectActions (roles : List (Option Action)) (action : Action) :
    (selectActions roles).1.of action = firstOfRole? roles action := by
  have hnone : ({} : SelectedActions).of action = none := by cases action <;> rfl
  unfold selectActions
  rw [of_scanActions, hnone, Option.none_or]
  simp

/-! ## What is read -/

/-- **First of a role**: the element at a position has it, and none before. -/
def IsFirstOf (roles : List (Option Action)) (action : Action) (index : Nat) : Prop :=
  roles[index]? = some (some action) ∧ ∀ earlier < index, roles[earlier]? ≠ some (some action)

/-- **Position at which both roles have first been seen.** -/
def CompletesAt (roles : List (Option Action)) (position : Nat) : Prop :=
  ∃ validate clear, IsFirstOf roles .validate validate ∧ IsFirstOf roles .clear clear ∧ position = max validate clear

theorem firstOfRole?_eq_some_iff {roles : List (Option Action)} {action : Action} {index : Nat} :
    firstOfRole? roles action = some index ↔ IsFirstOf roles action index := by
  unfold firstOfRole? IsFirstOf
  rw [List.findIdx?_eq_some_iff_getElem]
  constructor
  · rintro ⟨hlt, hrole, hearlier⟩
    refine ⟨List.getElem?_eq_some_iff.2 ⟨hlt, beq_iff_eq.1 hrole⟩, fun earlier hless hsame => ?_⟩
    obtain ⟨_, hsame⟩ := List.getElem?_eq_some_iff.1 hsame
    exact hearlier earlier hless (beq_iff_eq.2 hsame)
  · rintro ⟨hrole, hearlier⟩
    obtain ⟨hlt, hrole⟩ := List.getElem?_eq_some_iff.1 hrole
    refine ⟨hlt, beq_iff_eq.2 hrole, fun earlier hless hsame => ?_⟩
    exact hearlier earlier hless (List.getElem?_eq_some_iff.2 ⟨Nat.lt_trans hless hlt, beq_iff_eq.1 hsame⟩)

theorem firstOfRole?_eq_none_iff {roles : List (Option Action)} {action : Action} :
    firstOfRole? roles action = none ↔ some action ∉ roles := by
  unfold firstOfRole?
  rw [List.findIdx?_eq_none_iff]
  constructor
  · intro h hmem
    simpa using h _ hmem
  · intro h role hrole
    rw [beq_eq_false_iff_ne]
    rintro rfl
    exact h hrole

/-- A role is among the elements before a position just when its first element is. -/
theorem IsFirstOf.mem_take_iff {roles : List (Option Action)} {action : Action} {index n : Nat}
    (h : IsFirstOf roles action index) : some action ∈ roles.take n ↔ index < n := by
  obtain ⟨hrole, hearlier⟩ := h
  rw [List.mem_take_iff_getElem]
  constructor
  · rintro ⟨i, hi, hsame⟩
    refine Nat.lt_of_not_le fun hn => ?_
    exact hearlier i (by omega) (List.getElem?_eq_some_iff.2 ⟨by omega, hsame⟩)
  · intro hn
    obtain ⟨hlt, hrole⟩ := List.getElem?_eq_some_iff.1 hrole
    exact ⟨index, by omega, hrole⟩

theorem SelectedActions.isComplete_iff {s : SelectedActions} :
    s.isComplete = true ↔ ∀ action, (s.of action).isSome = true := by
  constructor
  · exact isSome_of_isComplete
  · intro h
    unfold isComplete
    rw [Bool.and_eq_true]
    exact ⟨h .validate, h .clear⟩

/-- What one more element adds to the selection is what it adds to the roles seen. -/
theorem seen_cons_iff {s : SelectedActions} (index : Nat) {i : Nat} {role : Option Action}
    {roles : List (Option Action)} {action : Action} :
    (s.of action).isSome = true ∨ some action ∈ (role :: roles).take (i + 1) ↔
      ((s.see index role).of action).isSome = true ∨ some action ∈ roles.take i := by
  rw [SelectedActions.of_see, List.take_succ_cons, List.mem_cons]
  by_cases hrole : role = some action
  · simp [hrole]
  · rw [if_neg hrole, Option.or_none, or_iff_right (Ne.symm hrole)]

/-- **A scan reads an element** unless both roles are selected or seen before it. -/
theorem reads_scanActions {s : SelectedActions} (hfree : s.isComplete = false) (index : Nat)
    {roles : List (Option Action)} {i : Nat} (hi : i < roles.length) {done : Prop} [Decidable done]
    (hdone : done ↔ ∀ action, (s.of action).isSome = true ∨ some action ∈ roles.take i) :
    (scanActions s index roles).2[i]? = some (if done then 0 else 1) := by
  induction roles generalizing s index i with
  | nil => exact absurd hi (Nat.not_lt_zero i)
  | cons role roles ih =>
    rw [scanActions]
    cases i with
    | zero =>
      -- the scan has not stopped, so the first element is read
      have hnot : ¬done := by
        intro h
        have hall := hdone.1 h
        simp only [List.take_zero, List.not_mem_nil, or_false] at hall
        rw [SelectedActions.isComplete_iff.2 hall] at hfree
        cases hfree
      rw [if_neg hnot]
      split <;> rfl
    | succ i =>
      simp only [seen_cons_iff index] at hdone
      have hi' : i < roles.length := Nat.lt_of_succ_lt_succ hi
      by_cases hcomplete : (s.see index role).isComplete = true
      · have hall : done := hdone.2 fun action => .inl (SelectedActions.isComplete_iff.1 hcomplete action)
        rw [if_pos hcomplete, if_pos hall]
        simp [hi']
      · rw [if_neg hcomplete]
        exact ih (Bool.eq_false_iff.2 hcomplete) (index + 1) hi' hdone

theorem length_reads_scanActions (s : SelectedActions) (index : Nat) (roles : List (Option Action)) :
    (scanActions s index roles).2.length = roles.length := by
  induction roles generalizing s index with
  | nil => rfl
  | cons role roles ih =>
    rw [scanActions]
    split
    · simp
    · simp [ih]

/-- **Reads of a selection**, told by a condition that says when both roles have been seen before an element. -/
theorem reads_selectActions {roles : List (Option Action)} (done : Nat → Prop) [DecidablePred done]
    (hdone : ∀ i < roles.length, done i ↔ ∀ action, some action ∈ roles.take i) :
    (selectActions roles).2 = roles.mapIdx fun i _ => if done i then 0 else 1 := by
  have hlength : (selectActions roles).2.length = roles.length := length_reads_scanActions {} 0 roles
  apply List.ext_getElem?
  intro i
  by_cases hi : i < roles.length
  · have hnone (action : Action) : (({} : SelectedActions).of action).isSome = false := by cases action <;> rfl
    have hseen : done i ↔ ∀ action, (({} : SelectedActions).of action).isSome = true ∨ some action ∈ roles.take i := by
      simp [hdone i hi, hnone]
    unfold selectActions
    rw [reads_scanActions rfl 0 hi hseen, List.getElem?_mapIdx, List.getElem?_eq_getElem hi, Option.map_some]
  · rw [List.getElem?_eq_none (by omega), List.getElem?_eq_none (by simpa using hi)]

theorem forall_mem_take_iff {roles : List (Option Action)} {validate clear n : Nat}
    (hvalidate : IsFirstOf roles .validate validate) (hclear : IsFirstOf roles .clear clear) :
    (∀ action, some action ∈ roles.take n) ↔ max validate clear < n := by
  rw [Nat.max_lt, ← hvalidate.mem_take_iff, ← hclear.mem_take_iff]
  constructor
  · exact fun h => ⟨h .validate, h .clear⟩
  · rintro ⟨hmemValidate, hmemClear⟩ action
    cases action with
    | validate => exact hmemValidate
    | clear => exact hmemClear

/-- Both roles are among some elements only if there is a position at which they have first been seen. -/
theorem exists_completesAt {roles : List (Option Action)} {n : Nat} (h : ∀ action, some action ∈ roles.take n) :
    ∃ position, CompletesAt roles position := by
  have hfirst (action : Action) : ∃ index, IsFirstOf roles action index := by
    cases hfound : firstOfRole? roles action with
    | none => exact absurd (List.mem_of_mem_take (h action)) (firstOfRole?_eq_none_iff.1 hfound)
    | some index => exact ⟨index, firstOfRole?_eq_some_iff.1 hfound⟩
  obtain ⟨validate, hvalidate⟩ := hfirst .validate
  obtain ⟨clear, hclear⟩ := hfirst .clear
  exact ⟨max validate clear, validate, clear, hvalidate, hclear, rfl⟩

/-- **A selection reads each element once**, up to the position at which both roles have been seen and none after it,
and takes the first element of each role. -/
theorem selectActions_reads_until_complete (roles : List (Option Action)) :
    (∀ action,
      (∀ index, (selectActions roles).1.of action = some index ↔ IsFirstOf roles action index) ∧
      ((selectActions roles).1.of action = none ↔ some action ∉ roles)) ∧
    (∀ position, CompletesAt roles position →
      (selectActions roles).2 = roles.mapIdx fun index _ => if index ≤ position then 1 else 0) ∧
    ((∀ position, ¬CompletesAt roles position) → (selectActions roles).2 = roles.mapIdx fun _ _ => 1) := by
  refine ⟨fun action => ⟨fun index => ?_, ?_⟩, ?_, ?_⟩
  · rw [of_selectActions, firstOfRole?_eq_some_iff]
  · rw [of_selectActions, firstOfRole?_eq_none_iff]
  · rintro position ⟨validate, clear, hvalidate, hclear, rfl⟩
    rw [reads_selectActions (fun i => max validate clear < i) fun i _ => (forall_mem_take_iff hvalidate hclear).symm]
    congr 1
    funext i _
    by_cases h : i ≤ max validate clear
    · rw [if_neg (Nat.not_lt.2 h), if_pos h]
    · rw [if_pos (Nat.lt_of_not_le h), if_neg h]
  · intro hnone
    rw [reads_selectActions fun _ => False]
    · rfl
    · intro i _
      constructor
      · exact False.elim
      · intro h
        obtain ⟨position, hposition⟩ := exists_completesAt h
        exact hnone position hposition

/-- Both roles have been seen at the fourth of these elements, and the fifth is not read. -/
theorem selectActions_reads_toolbar :
    let roles := [some .clear, none, some .clear, some .validate, some .validate]
    CompletesAt roles 3 ∧ (selectActions roles).2 = [1, 1, 1, 1, 0] := by
  have hcompletes : CompletesAt [some .clear, none, some .clear, some .validate, some .validate] 3 :=
    ⟨3, 0, ⟨rfl, by decide⟩, ⟨rfl, by decide⟩, rfl⟩
  exact ⟨hcompletes, (selectActions_reads_until_complete _).2.1 3 hcompletes⟩

end FormWiring
