import FormWiring.Regex.Pattern
import Mathlib.Data.Nat.Init
import Mathlib.Order.Basic
import Mathlib.Order.Lattice
import Mathlib.Tactic.Tauto

/-!
# Matches computed

The ends that are computed from a start are those of the matches. A repetition is a chain of matches of its inner
pattern; a chain that is longer than the text has a match of nothing in it, which can be left out or taken again, so
longer chains reach no more than those of a bounded length.

Main statements: `mem_ends_iff`, `isFoundIn_anchored_iff`.
-/

set_option autoImplicit false

namespace FormWiring.Regex.Pattern

/-! ## Chains -/

/-- **Chain of steps**, as many as a number says. -/
inductive Chain (R : Nat → Nat → Prop) : Nat → Nat → Nat → Prop where
  | nil (i : Nat) : Chain R 0 i i
  | cons {n i j k : Nat} (step : R i j) (rest : Chain R n j k) : Chain R (n + 1) i k

namespace Chain

variable {R : Nat → Nat → Prop} {m n i j k : Nat}

theorem zero_iff : Chain R 0 i j ↔ j = i := by
  constructor
  · rintro ⟨⟩
    rfl
  · rintro rfl
    exact .nil j

theorem succ_iff : Chain R (n + 1) i k ↔ ∃ j, R i j ∧ Chain R n j k := by
  constructor
  · rintro ⟨step, rest⟩
    exact ⟨_, ‹_›, ‹_›⟩
  · rintro ⟨j, step, rest⟩
    exact .cons step rest

theorem add_iff : Chain R (m + n) i k ↔ ∃ j, Chain R m i j ∧ Chain R n j k := by
  induction m generalizing i with
  | zero => simp [zero_iff]
  | succ m ih =>
    rw [Nat.add_right_comm, succ_iff]
    simp only [ih, succ_iff]
    constructor
    · rintro ⟨a, step, b, front, back⟩
      exact ⟨b, ⟨a, step, front⟩, back⟩
    · rintro ⟨b, ⟨a, step, front⟩, back⟩
      exact ⟨a, step, b, front, back⟩

/-- **Forward steps** within a text of some size. -/
structure Forward (R : Nat → Nat → Prop) (size : Nat) : Prop where
  le : ∀ {i j}, R i j → i ≤ j
  bounded : ∀ {i j}, R i j → i < j → j ≤ size

variable {size : Nat}

theorem bounded (hR : Forward R size) (h : Chain R n i j) : i ≤ j ∧ (i < j → j ≤ size) := by
  induction h with
  | nil i => exact ⟨le_rfl, fun h => absurd h (lt_irrefl i)⟩
  | cons step rest ih =>
    obtain ⟨hle, hsize⟩ := ih
    have hstep := hR.le step
    refine ⟨hstep.trans hle, fun hlt => ?_⟩
    rcases hle.lt_or_eq with h | rfl
    · exact hsize h
    · exact hR.bounded step hlt

/-- A chain gets on with each step, or has a step on the spot. -/
theorem gets_on_or (hR : Forward R size) (h : Chain R n i j) :
    i + n ≤ j ∨ ∃ m, n = m + 1 ∧ Chain R m i j ∧ Chain R (n + 1) i j := by
  induction h with
  | nil i => exact .inl le_rfl
  | @cons n i a k step rest ih =>
    rcases ih with hon | ⟨m, rfl, hshort, hlong⟩
    · rcases (hR.le step).lt_or_eq with hlt | rfl
      · exact .inl (by omega)
      · exact .inr ⟨n, rfl, rest, .cons step (.cons step rest)⟩
    · exact .inr ⟨m + 1, rfl, .cons step hshort, .cons step hlong⟩

/-- **Beyond the size of the text** the length of a chain makes no difference. -/
theorem succ_iff_of_lt (hR : Forward R size) (hn : size < n) : Chain R (n + 1) i j ↔ Chain R n i j := by
  have hstay {n : Nat} (hn : size < n) (h : Chain R n i j) : ∃ m, n = m + 1 ∧ Chain R m i j ∧ Chain R (n + 1) i j := by
    refine (gets_on_or hR h).resolve_left fun hon => ?_
    have := (bounded hR h).2 (by omega)
    omega
  constructor
  · intro h
    obtain ⟨m, hm, hshort, -⟩ := hstay (by omega) h
    obtain rfl : n = m := by omega
    exact hshort
  · intro h
    obtain ⟨-, -, -, hlong⟩ := hstay hn h
    exact hlong

theorem iff_of_lt (hR : Forward R size) (hm : size < m) (hn : size < n) : Chain R m i j ↔ Chain R n i j := by
  have hmore (d : Nat) : Chain R (size + 1 + d) i j ↔ Chain R (size + 1) i j := by
    induction d with
    | zero => rfl
    | succ d ih =>
      rw [← Nat.add_assoc]
      exact (succ_iff_of_lt hR (by omega)).trans ih
  obtain ⟨c, rfl⟩ : ∃ c, m = size + 1 + c := ⟨m - (size + 1), by omega⟩
  obtain ⟨d, rfl⟩ : ∃ d, n = size + 1 + d := ⟨n - (size + 1), by omega⟩
  exact (hmore c).trans (hmore d).symm

end Chain

/-! ## Matches -/

variable {text : Array Char} {p : Pattern} {i j k : Nat}

/-- **Matches go forward.** -/
theorem forward_matches (text : Array Char) (p : Pattern) : Chain.Forward (Matches text p) text.size := by
  have hmatch : ∀ {p i j}, Matches text p i j → i ≤ j ∧ (i < j → j ≤ text.size) := by
    intro p i j h
    induction h with
    | set s i c hc _ =>
      have := (Array.getElem?_eq_some_iff.1 hc).1
      omega
    | sequenceCons | repetitionStep => omega
    | choice _ _ _ _ _ _ ih | group _ _ _ _ ih => exact ih
    | empty | anchor | sequenceNil | repetitionDone => omega
  exact ⟨fun h => (hmatch h).1, fun h => (hmatch h).2⟩

theorem matches_empty_iff : Matches text .empty i j ↔ j = i := by
  constructor
  · rintro ⟨⟩
    rfl
  · rintro rfl
    exact .empty j

theorem matches_set_iff {s : CharSet} :
    Matches text (.set s) i j ↔ (∃ c, text[i]? = some c ∧ s.contains c = true) ∧ j = i + 1 := by
  constructor
  · rintro ⟨⟩
    exact ⟨⟨_, ‹_›, ‹_›⟩, rfl⟩
  · rintro ⟨⟨c, hc, hs⟩, rfl⟩
    exact .set s i c hc hs

theorem matches_anchor_iff {a : Anchor} :
    Matches text (.anchor a) i j ↔ (i ≤ text.size ∧ a.holdsAt text i = true) ∧ j = i := by
  constructor
  · rintro ⟨⟩
    exact ⟨⟨‹_›, ‹_›⟩, rfl⟩
  · rintro ⟨⟨hi, ha⟩, rfl⟩
    exact .anchor a j hi ha

theorem matches_sequence_nil_iff : Matches text (.sequence []) i j ↔ j = i := by
  constructor
  · rintro ⟨⟩
    rfl
  · rintro rfl
    exact .sequenceNil j

theorem matches_sequence_cons_iff {ps : List Pattern} :
    Matches text (.sequence (p :: ps)) i k ↔ ∃ j, Matches text p i j ∧ Matches text (.sequence ps) j k := by
  constructor
  · rintro ⟨⟩
    exact ⟨_, ‹_›, ‹_›⟩
  · rintro ⟨j, hp, hps⟩
    exact .sequenceCons p ps i j k hp hps

theorem matches_choice_iff {ps : List Pattern} :
    Matches text (.choice ps) i j ↔ ∃ p ∈ ps, Matches text p i j := by
  constructor
  · rintro ⟨⟩
    exact ⟨_, ‹_›, ‹_›⟩
  · rintro ⟨p, hp, h⟩
    exact .choice p ps i j hp h

theorem matches_group_iff : Matches text (.group p) i j ↔ Matches text p i j := by
  constructor
  · rintro ⟨⟩
    assumption
  · exact .group p i j

/-- **A repetition** is a chain of matches, of a length within its bounds. -/
theorem matches_repetition_iff {least : Nat} {most : Option Nat} :
    Matches text (.repetition least most p) i k ↔
      ∃ n, least ≤ n ∧ (∀ m ∈ most, n ≤ m) ∧ Chain (Matches text p) n i k := by
  constructor
  · intro h
    generalize hq : Pattern.repetition least most p = q at h
    induction h generalizing least most with
    | repetitionDone most _ i =>
      cases hq
      exact ⟨0, le_rfl, fun _ _ => Nat.zero_le _, .nil i⟩
    | repetitionStep _ _ _ i j k hmost step _ _ ih =>
      cases hq
      obtain ⟨n, hleast, hbound, rest⟩ := ih rfl
      refine ⟨n + 1, by omega, fun m hm => ?_, .cons step rest⟩
      cases hm
      have := hbound (m - 1) rfl
      have : m ≠ 0 := fun h => hmost (h ▸ rfl)
      omega
    | _ => cases hq
  · rintro ⟨n, hleast, hbound, chain⟩
    induction chain generalizing least most with
    | nil i =>
      obtain rfl : least = 0 := by omega
      exact .repetitionDone most p i
    | @cons n i j k step _ ih =>
      refine .repetitionStep least most p i j k ?_ step (ih (by omega) ?_)
      · rintro rfl
        have := hbound 0 rfl
        omega
      · intro m hm
        obtain ⟨m, hm', rfl⟩ := Option.map_eq_some_iff.1 hm
        have := hbound m hm'
        omega

/-! ## Positions reached -/

variable {step : Nat → List Nat}

theorem mem_addAll {found more : List Nat} : i ∈ addAll found more ↔ i ∈ found ∨ i ∈ more := by
  unfold addAll
  induction more generalizing found with
  | nil => simp
  | cons a more ih =>
    rw [List.foldl_cons, ih]
    split
    · rename_i ha
      have ha' : a ∈ found := by simpa using ha
      simp only [List.mem_cons]
      constructor
      · tauto
      · rintro (h | rfl | h)
        · exact .inl h
        · exact .inl ha'
        · exact .inr h
    · simp only [List.mem_cons]
      tauto

theorem mem_stepAll {starts : List Nat} : j ∈ stepAll step starts ↔ ∃ i ∈ starts, j ∈ step i := by
  have hfold : ∀ found, j ∈ starts.foldl (fun found i => addAll found (step i)) found ↔
      j ∈ found ∨ ∃ i ∈ starts, j ∈ step i := by
    induction starts with
    | nil => simp
    | cons a starts ih => simp [ih, mem_addAll, or_assoc]
  simp [stepAll, hfold]

theorem mem_steps {n : Nat} {starts : List Nat} :
    k ∈ steps step n starts ↔ ∃ i ∈ starts, Chain (fun i j => j ∈ step i) n i k := by
  induction n generalizing starts with
  | zero => simp [steps, Chain.zero_iff]
  | succ n ih =>
    simp only [steps, ih, mem_stepAll, Chain.succ_iff]
    constructor
    · rintro ⟨j, ⟨i, hi, hstep⟩, rest⟩
      exact ⟨i, hi, j, hstep, rest⟩
    · rintro ⟨i, hi, j, hstep, rest⟩
      exact ⟨j, ⟨i, hi, hstep⟩, rest⟩

theorem mem_of_chain {found : List Nat} {n : Nat} (hclosed : ∀ i ∈ found, ∀ j ∈ step i, j ∈ found)
    (h : Chain (fun i j => j ∈ step i) n i j) (hi : i ∈ found) : j ∈ found := by
  induction h with
  | nil => exact hi
  | cons hstep _ ih => exact ih (hclosed _ hi _ hstep)

/-- **Positions reached by at most a number of steps.** What is fresh was found, and whatever follows what is not fresh
was found as well. -/
theorem mem_closure {n : Nat} {found fresh : List Nat} (hfresh : ∀ i ∈ fresh, i ∈ found)
    (hold : ∀ i ∈ found, i ∉ fresh → ∀ j ∈ step i, j ∈ found) :
    k ∈ closure step n found fresh ↔ ∃ i ∈ found, ∃ m ≤ n, Chain (fun i j => j ∈ step i) m i k := by
  induction n generalizing found fresh with
  | zero => simp [closure, Chain.zero_iff]
  | succ n ih =>
    have hnext : ∀ j, j ∈ (stepAll step fresh).filter (fun i => !found.contains i) ↔
        (∃ i ∈ fresh, j ∈ step i) ∧ j ∉ found := by
      simp [mem_stepAll]
    have hstep : ∀ i ∈ found, ∀ j ∈ step i,
        j ∈ found ∨ j ∈ (stepAll step fresh).filter (fun i => !found.contains i) := by
      intro i hi j hj
      rw [hnext]
      by_cases hi' : i ∈ fresh
      · by_cases hj' : j ∈ found
        · exact .inl hj'
        · exact .inr ⟨⟨i, hi', hj⟩, hj'⟩
      · exact .inl (hold i hi hi' j hj)
    simp only [closure]
    split
    · rename_i hempty
      have hclosed : ∀ i ∈ found, ∀ j ∈ step i, j ∈ found := by
        intro i hi j hj
        refine (hstep i hi j hj).resolve_right fun h => ?_
        rw [List.isEmpty_iff.1 hempty] at h
        cases h
      constructor
      · exact fun hk => ⟨k, hk, 0, Nat.zero_le _, .nil k⟩
      · rintro ⟨i, hi, m, -, chain⟩
        exact mem_of_chain hclosed chain hi
    · rw [ih (fun i hi => List.mem_append_right _ hi)]
      · constructor
        · rintro ⟨i, hi, m, hm, chain⟩
          rcases List.mem_append.1 hi with hi | hi
          · exact ⟨i, hi, m, by omega, chain⟩
          · obtain ⟨⟨a, ha, hstep⟩, -⟩ := (hnext i).1 hi
            exact ⟨a, hfresh a ha, m + 1, by omega, .cons hstep chain⟩
        · rintro ⟨i, hi, m, hm, chain⟩
          cases chain with
          | nil => exact ⟨_, List.mem_append_left _ hi, 0, Nat.zero_le _, .nil _⟩
          | @cons m _ a _ hia rest => exact ⟨a, List.mem_append.2 (hstep i hi a hia), m, by omega, rest⟩
      · intro i hi hi' j hj
        exact List.mem_append.2 (hstep i ((List.mem_append.1 hi).resolve_right hi') j hj)

/-! ## Ends -/

/-- **A repetition computed**: the numbers of steps are cut to what a text of its size needs. -/
theorem mem_ends_repetition_iff {least : Nat} {most : Option Nat}
    (hinner : ∀ i j, j ∈ p.ends text i ↔ Matches text p i j) :
    j ∈ (Pattern.repetition least most p).ends text i ↔ Matches text (.repetition least most p) i j := by
  have hR := forward_matches text p
  have hstep : (fun i j => j ∈ p.ends text i) = Matches text p := by
    funext i j
    exact propext (hinner i j)
  have hreached (more : Nat) :
      (j ∈ closure (fun i => p.ends text i) more (steps (fun i => p.ends text i) (min least (text.size + 1)) [i])
          (steps (fun i => p.ends text i) (min least (text.size + 1)) [i])) ↔
        ∃ m ≤ more, Chain (Matches text p) (min least (text.size + 1) + m) i j := by
    rw [mem_closure (fun _ h => h) (fun _ h h' => absurd h h')]
    simp only [mem_steps, hstep, List.mem_singleton, exists_eq_left, Chain.add_iff]
    constructor
    · rintro ⟨a, front, m, hm, back⟩
      exact ⟨m, hm, a, front, back⟩
    · rintro ⟨m, hm, a, front, back⟩
      exact ⟨a, front, m, hm, back⟩
  rw [matches_repetition_iff]
  simp only [ends]
  split
  · rename_i hbounds
    obtain ⟨n, hn, hlt⟩ := (Option.any_eq_true _ _).1 hbounds
    refine iff_of_false (by simp) ?_
    rintro ⟨m, hleast, hmost, -⟩
    have := hmost n hn
    have := of_decide_eq_true hlt
    omega
  · rename_i hbounds
    have hle : ∀ n ∈ most, least ≤ n := by
      rintro n ⟨⟩
      simpa using hbounds
    refine (hreached _).trans ⟨?_, ?_⟩
    · rintro ⟨m, hm, chain⟩
      rcases le_or_gt least (text.size + 1) with hsmall | hlarge
      · rw [min_eq_left hsmall] at chain
        refine ⟨least + m, by omega, ?_, chain⟩
        rintro n ⟨⟩
        have := hle n rfl
        simp only at hm
        omega
      · exact ⟨least, le_rfl, hle, (Chain.iff_of_lt hR (by omega) (by omega)).1 chain⟩
    · rintro ⟨n, hleast, hmost, chain⟩
      refine ⟨min (n - least) (text.size + 1), ?_, ?_⟩
      · cases most with
        | none => exact min_le_right _ _
        | some bound =>
          have := hmost bound rfl
          simp only
          omega
      · by_cases hcut : min least (text.size + 1) + min (n - least) (text.size + 1) = n
        · rwa [hcut]
        · exact (Chain.iff_of_lt hR (by omega) (by omega)).1 chain

mutual

/-- **The ends computed** are the ends of matches. -/
theorem mem_ends_iff (text : Array Char) : ∀ (p : Pattern) (i j : Nat), j ∈ p.ends text i ↔ Matches text p i j
  | .empty, i, j => by simp [ends, matches_empty_iff]
  | .set s, i, j => by
    rw [matches_set_iff]
    simp only [ends]
    cases hc : text[i]? with
    | none => simp
    | some c => cases hs : s.contains c <;> simp [hs]
  | .anchor a, i, j => by
    rw [matches_anchor_iff]
    simp only [ends]
    split <;> simp_all
  | .sequence parts, i, j => by
    simp [ends, mem_sequenceEnds_iff text parts]
  | .choice parts, i, j => by
    rw [matches_choice_iff]
    simp only [ends]
    exact mem_choiceEnds_iff text parts i j
  | .group inner, i, j => by
    rw [matches_group_iff]
    simp only [ends]
    exact mem_ends_iff text inner i j
  | .repetition least most inner, i, j => mem_ends_repetition_iff (mem_ends_iff text inner)

theorem mem_sequenceEnds_iff (text : Array Char) : ∀ (parts : List Pattern) (starts : List Nat) (j : Nat),
    j ∈ sequenceEnds text parts starts ↔ ∃ i ∈ starts, Matches text (.sequence parts) i j
  | [], starts, j => by simp [sequenceEnds, matches_sequence_nil_iff]
  | p :: ps, starts, k => by
    simp only [sequenceEnds, mem_sequenceEnds_iff text ps, mem_stepAll, mem_ends_iff text p, matches_sequence_cons_iff]
    constructor
    · rintro ⟨j, ⟨i, hi, hp⟩, hps⟩
      exact ⟨i, hi, j, hp, hps⟩
    · rintro ⟨i, hi, j, hp, hps⟩
      exact ⟨j, ⟨i, hi, hp⟩, hps⟩

theorem mem_choiceEnds_iff (text : Array Char) : ∀ (parts : List Pattern) (i j : Nat),
    j ∈ choiceEnds text parts i ↔ ∃ p ∈ parts, Matches text p i j
  | [], i, j => by simp [choiceEnds]
  | p :: ps, i, j => by
    simp [choiceEnds, mem_addAll, mem_ends_iff text p, mem_choiceEnds_iff text ps]

end

/-! ## Texts -/

theorem isFoundIn_iff {cs : List Char} :
    p.isFoundIn cs = true ↔ ∃ i ≤ cs.length, ∃ j, Matches cs.toArray p i j := by
  simp only [isFoundIn, List.any_eq_true, List.mem_range, Nat.lt_succ_iff, List.size_toArray]
  refine exists_congr fun i => and_congr_right fun _ => ?_
  simp only [← mem_ends_iff]
  cases p.ends cs.toArray i with
  | nil => simp
  | cons j js => simp

theorem holdsAt_textStart_iff (hi : i ≤ text.size) : Anchor.textStart.holdsAt text i = true ↔ i = 0 := by
  by_cases h : i = 0
  · simp [Anchor.holdsAt, Anchor.holds, h]
  · simp [Anchor.holdsAt, Anchor.holds, h]
    omega

theorem holdsAt_textEnd_iff (hi : i ≤ text.size) : Anchor.textEnd.holdsAt text i = true ↔ i = text.size := by
  simp [Anchor.holdsAt, Anchor.holds]
  omega

/-- **A group between the anchors of the text** is found just where what is in it matches the whole text. -/
theorem isFoundIn_anchored_iff {cs : List Char} :
    (Pattern.sequence [.anchor .textStart, .group p, .anchor .textEnd]).isFoundIn cs = true ↔
      Matches cs.toArray p 0 cs.length := by
  rw [isFoundIn_iff]
  simp only [matches_sequence_cons_iff, matches_sequence_nil_iff, matches_anchor_iff, matches_group_iff]
  constructor
  · rintro ⟨i, hi, j, _, ⟨⟨-, hstart⟩, rfl⟩, k, hp, _, ⟨⟨hk, hend⟩, rfl⟩, rfl⟩
    obtain rfl := (holdsAt_textStart_iff (by simpa using hi)).1 hstart
    obtain rfl := (holdsAt_textEnd_iff hk).1 hend
    simpa using hp
  · intro hp
    refine ⟨0, Nat.zero_le _, cs.length, 0, ⟨⟨Nat.zero_le _, ?_⟩, rfl⟩, cs.length, hp, cs.length, ⟨⟨?_, ?_⟩, rfl⟩, rfl⟩
    · exact (holdsAt_textStart_iff (Nat.zero_le _)).2 rfl
    · simp
    · exact (holdsAt_textEnd_iff (by simp)).2 (by simp)

end FormWiring.Regex.Pattern
