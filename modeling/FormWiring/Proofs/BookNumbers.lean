import FormWiring.Proofs.SeparatedDigits
import Mathlib.Data.Nat.ModEq

/-!
# Typing errors in book numbers

Both sums over a book number are weighted, modulo eleven or modulo ten. Another digit in one place is noticed because
the weights are units; exchanged digits are noticed in numbers of ten because the differences of weights are units
too, which the weights one and three of the other numbers do not have.

Main definition: `Check.CatchesTypingErrors`. Main statement: `isIsbn_catchesTypingErrors`.
-/

set_option autoImplicit false

namespace FormWiring.Check

/-! ## The law -/

/-- **Value of a character in its place**: an X counts ten in the last of ten places. -/
def placeValue? (place : Nat) (c : Char) : Option Nat :=
  if place = 9 ∧ (c = 'X' ∨ c = 'x') then some 10 else digit? c

/-- **Law of book numbers** for a recogniser of them, between separators. The place of a character is told by the
significant characters before it. -/
structure CatchesTypingErrors (accepts : List Char → Bool) (separators : List Char) : Prop where
  /-- A separator may be put in or taken out anywhere. -/
  separated : ∀ before after, ∀ s ∈ separators, accepts (before ++ s :: after) = accepts (before ++ after)
  /-- There are ten or thirteen significant characters. -/
  counted : ∀ cs, (significant separators cs).length ≠ 10 → (significant separators cs).length ≠ 13 →
    accepts cs = false
  /-- An X elsewhere than in the last of ten places spoils the number. -/
  lettered : ∀ before after c, c = 'X' ∨ c = 'x' →
    ((significant separators before).length = 9 → significant separators after ≠ []) →
      accepts (before ++ c :: after) = false
  /-- In a number of ten, one character may stand for another only with the same value. -/
  replacedTen : ∀ before after c d, accepts (before ++ c :: after) = true →
    (significant separators (before ++ c :: after)).length = 10 → c ∉ separators → d ∉ separators →
      (accepts (before ++ d :: after) = true ↔
        placeValue? (significant separators before).length d = placeValue? (significant separators before).length c)
  /-- In a number of ten, no two characters of different values may be exchanged. -/
  exchangedTen : ∀ before between after c d v w, accepts (before ++ c :: (between ++ d :: after)) = true →
    (significant separators (before ++ c :: (between ++ d :: after))).length = 10 →
      placeValue? (significant separators before).length c = some v →
      placeValue? (significant separators (before ++ c :: between)).length d = some w → v ≠ w →
        accepts (before ++ d :: (between ++ c :: after)) = false
  /-- In a number of thirteen, no character may stand for another. -/
  replacedThirteen : ∀ before after c d, accepts (before ++ c :: after) = true →
    (significant separators (before ++ c :: after)).length = 13 → c ∉ separators → d ∉ separators →
      (accepts (before ++ d :: after) = true ↔ d = c)
  /-- Nine digits take one value to end with. -/
  lastTen : ∀ cs, IsSpaced separators cs → cs.countP Text.isDigit = 9 →
    ∃! v, v ≤ 10 ∧ ∀ c, accepts (cs ++ [c]) = true ↔ placeValue? 9 c = some v
  /-- Twelve digits take one digit to end with. -/
  lastThirteen : ∀ cs, IsSpaced separators cs → cs.countP Text.isDigit = 12 →
    ∃! c, Text.isDigit c = true ∧ accepts (cs ++ [c]) = true

/-! ## Sums with weights that are units -/

section Sums

variable {m n d e : Nat} {front middle back first rest weights : List Nat}

theorem weightedSum_append_cons (h : front.length = first.length) (w : Nat) :
    weightedSum (front ++ d :: back) (first ++ w :: rest) =
      weightedSum front first + (d * w + weightedSum back rest) := by
  rw [weightedSum_eq_sum, weightedSum_eq_sum, weightedSum_eq_sum, List.zipWith_append h, List.zipWith_cons_cons,
    List.sum_append, List.sum_cons]

/-- **A weight in its place**, between those before and those after. -/
theorem exists_weight (h : n < weights.length) : ∃ first w rest, first.length = n ∧ weights = first ++ w :: rest := by
  refine ⟨weights.take n, weights[n], weights.drop (n + 1), List.length_take_of_le (Nat.le_of_lt h), ?_⟩
  rw [List.getElem_cons_drop h, List.take_append_drop]

/-- **Another digit in one place** changes a sum with weights that are units. -/
theorem weightedSum_replaced_iff (hweights : ∀ w ∈ weights, Nat.Coprime m w) (hlength : front.length < weights.length)
    (hd : d < m) (he : e < m) (hsum : weightedSum (front ++ d :: back) weights % m = 0) :
    weightedSum (front ++ e :: back) weights % m = 0 ↔ e = d := by
  constructor
  · intro hreplaced
    obtain ⟨first, w, rest, hfirst, rfl⟩ := exists_weight hlength
    have hunit : Nat.Coprime m w := hweights w (List.mem_append_right first List.mem_cons_self)
    rw [weightedSum_append_cons hfirst.symm] at hsum hreplaced
    have hterm : e * w ≡ d * w [MOD m] :=
      Nat.ModEq.add_right_cancel' _ (Nat.ModEq.add_left_cancel' _ (hreplaced.trans hsum.symm))
    exact (Nat.ModEq.cancel_right_of_coprime hunit hterm).eq_of_lt_of_lt he hd
  · rintro rfl
    exact hsum

/-- **Exchanged digits** change a sum with weights whose differences are units. -/
theorem weightedSum_exchanged_iff (hweights : weights.Pairwise fun v w => w < v ∧ Nat.Coprime m (v - w))
    (hlength : front.length + middle.length + 1 < weights.length) (hd : d < m) (he : e < m)
    (hsum : weightedSum (front ++ d :: (middle ++ e :: back)) weights % m = 0) :
    weightedSum (front ++ e :: (middle ++ d :: back)) weights % m = 0 ↔ e = d := by
  constructor
  · intro hexchanged
    have hplace : front.length < weights.length := by omega
    obtain ⟨first, v, rest, hfirst, rfl⟩ := exists_weight hplace
    have hplace : middle.length < rest.length := by
      rw [List.length_append, List.length_cons] at hlength
      omega
    obtain ⟨second, w, rest, hsecond, rfl⟩ := exists_weight hplace
    obtain ⟨hlt, hunit⟩ : w < v ∧ Nat.Coprime m (v - w) :=
      (List.pairwise_cons.1 (List.pairwise_append.1 hweights).2.1).1 w (List.mem_append_right second List.mem_cons_self)
    obtain ⟨k, rfl⟩ := Nat.exists_eq_add_of_le (Nat.le_of_lt hlt)
    rw [Nat.add_sub_cancel_left] at hunit
    rw [weightedSum_append_cons hfirst.symm, weightedSum_append_cons hsecond.symm, Nat.mul_add] at hsum hexchanged
    -- all but the differences of the weights is the same in both sums
    have hterm : e * k ≡ d * k [MOD m] := by
      apply Nat.ModEq.add_right_cancel' (weightedSum front first + d * w + e * w + weightedSum middle second +
        weightedSum back rest)
      refine Eq.trans ?_ (hexchanged.trans (hsum.symm.trans ?_))
      · congr 1
        omega
      · congr 1
        omega
    exact (Nat.ModEq.cancel_right_of_coprime hunit hterm).eq_of_lt_of_lt he hd
  · rintro rfl
    exact hsum

/-- **One value at the end** makes a sum with weight one a multiple. -/
theorem exists_last_value (hm : 0 < m) (h : front.length = first.length) :
    ∃ v < m, ∀ e < m, weightedSum (front ++ [e]) (first ++ [1]) % m = 0 ↔ e = v := by
  have hsum (e : Nat) : weightedSum (front ++ [e]) (first ++ [1]) = weightedSum front first + e := by
    rw [weightedSum_append_cons h, Nat.mul_one]
    rfl
  -- the value is what the sum before it lacks to a multiple
  have hmissing : (weightedSum front first + (m - weightedSum front first % m) % m) % m = 0 := by
    rw [Nat.add_mod_mod, ← Nat.mod_add_mod, Nat.add_sub_of_le (Nat.le_of_lt (Nat.mod_lt _ hm)), Nat.mod_self]
  refine ⟨(m - weightedSum front first % m) % m, Nat.mod_lt _ hm, ?_⟩
  intro e he
  rw [hsum]
  constructor
  · intro hzero
    exact (Nat.ModEq.add_left_cancel' _ (hzero.trans hmissing.symm)).eq_of_lt_of_lt he (Nat.mod_lt _ hm)
  · rintro rfl
    exact hmissing

end Sums

/-! ## Values in places -/

section Values

variable {place other : Nat} {c d : Char} {front back cs : List Char} {v w : Nat} {vs : List Nat}

theorem placeValue?_of_isDigit (h : Text.isDigit c = true) : placeValue? place c = some (Text.digitValue c) := by
  unfold placeValue?
  rw [if_neg, digit?, if_pos h]
  rintro ⟨-, rfl | rfl⟩
  · exact Bool.false_ne_true h
  · exact Bool.false_ne_true h

theorem placeValue?_lt (h : placeValue? place c = some v) : v < 11 := by
  unfold placeValue? digit? at h
  split at h
  · rw [← Option.some.inj h]
    decide
  · rw [Option.ite_none_right_eq_some] at h
    rw [← Option.some.inj h.2]
    exact Nat.lt_succ_of_lt (Text.digitValue_lt_ten h.1)

/-- A character that has a value in two places has the same in both. -/
theorem placeValue?_unique (hv : placeValue? place c = some v) (hw : placeValue? other c = some w) : v = w := by
  by_cases hdigit : Text.isDigit c = true
  · rw [placeValue?_of_isDigit hdigit] at hv hw
    exact Option.some.inj (hv.symm.trans hw)
  · unfold placeValue? digit? at hv hw
    rw [if_neg hdigit, Option.ite_none_right_eq_some] at hv hw
    exact Option.some.inj (hv.2.symm.trans hw.2)

/-- A separator has no value. -/
theorem not_mem_of_placeValue? (h : placeValue? place c = some v) : c ∉ ['-', ' '] := by
  by_cases hdigit : Text.isDigit c = true
  · exact not_mem_of_isDigit rfl hdigit
  · unfold placeValue? digit? at h
    rw [if_neg hdigit, Option.ite_none_right_eq_some] at h
    rcases h.1.2 with rfl | rfl
    · decide
    · decide

/-- Each value up to ten is that of a character in the last place. -/
theorem exists_placeValue? (h : v ≤ 10) : ∃ c, placeValue? 9 c = some v := by
  by_cases hten : v = 10
  · exact ⟨'X', by rw [hten]; rfl⟩
  · obtain ⟨c, hc, rfl⟩ := Text.exists_isDigit (show v < 10 by omega)
    exact ⟨c, placeValue?_of_isDigit hc⟩

/-- **Values of characters** from a place on, if each has one. -/
def placeValues? (place : Nat) (cs : List Char) : Option (List Nat) :=
  (cs.zipIdx place).mapM fun (c, place) => placeValue? place c

theorem placeValues?_cons :
    placeValues? place (c :: cs) = (do
      let v ← placeValue? place c
      let vs ← placeValues? (place + 1) cs
      pure (v :: vs)) := by
  unfold placeValues?
  rw [List.zipIdx_cons, List.mapM_cons]

theorem placeValues?_cons_eq_some_iff :
    placeValues? place (c :: cs) = some vs ↔
      ∃ v ws, placeValue? place c = some v ∧ placeValues? (place + 1) cs = some ws ∧ v :: ws = vs := by
  rw [placeValues?_cons]
  simp only [Option.bind_eq_bind, Option.bind_eq_some_iff, Option.pure_def, Option.some.injEq]
  constructor
  · rintro ⟨v, hv, ws, hws, rfl⟩
    exact ⟨v, ws, hv, hws, rfl⟩
  · rintro ⟨v, ws, hv, hws, rfl⟩
    exact ⟨v, hv, ws, hws, rfl⟩

theorem placeValues?_append_eq_some_iff :
    placeValues? place (front ++ back) = some vs ↔ ∃ us ws, placeValues? place front = some us ∧
      placeValues? (place + front.length) back = some ws ∧ us ++ ws = vs := by
  unfold placeValues?
  rw [List.zipIdx_append, List.mapM_append]
  simp only [Option.bind_eq_bind, Option.bind_eq_some_iff, Option.pure_def, Option.some.injEq]
  constructor
  · rintro ⟨us, hus, ws, hws, rfl⟩
    exact ⟨us, ws, hus, hws, rfl⟩
  · rintro ⟨us, ws, hus, hws, rfl⟩
    exact ⟨us, hus, ws, hws, rfl⟩

/-- **One character apart**, with the values before and after. -/
theorem placeValues?_append_cons_eq_some_iff :
    placeValues? place (front ++ c :: back) = some vs ↔ ∃ us v ws, placeValues? place front = some us ∧
      placeValue? (place + front.length) c = some v ∧ placeValues? (place + front.length + 1) back = some ws ∧
      us ++ v :: ws = vs := by
  rw [placeValues?_append_eq_some_iff]
  constructor
  · rintro ⟨us, _, hus, hrest, rfl⟩
    obtain ⟨v, ws, hv, hws, rfl⟩ := placeValues?_cons_eq_some_iff.1 hrest
    exact ⟨us, v, ws, hus, hv, hws, rfl⟩
  · rintro ⟨us, v, ws, hus, hv, hws, rfl⟩
    exact ⟨us, v :: ws, hus, placeValues?_cons_eq_some_iff.2 ⟨v, ws, hv, hws, rfl⟩, rfl⟩

theorem length_placeValues? (h : placeValues? place cs = some vs) : vs.length = cs.length := by
  induction cs generalizing place vs with
  | nil =>
    obtain rfl := Option.some.inj h
    rfl
  | cons c cs ih =>
    obtain ⟨v, ws, -, hws, rfl⟩ := placeValues?_cons_eq_some_iff.1 h
    exact congrArg Nat.succ (ih hws)

theorem placeValues?_of_forall_isDigit (h : ∀ c ∈ cs, Text.isDigit c = true) :
    placeValues? place cs = some (cs.map Text.digitValue) := by
  induction cs generalizing place with
  | nil => rfl
  | cons c cs ih =>
    obtain ⟨hc, hcs⟩ := List.forall_mem_cons.1 h
    exact placeValues?_cons_eq_some_iff.2 ⟨_, _, placeValue?_of_isDigit hc, ih hcs, rfl⟩

theorem placeValues?_significant (h : IsSpaced ['-', ' '] cs) :
    placeValues? place (significant ['-', ' '] cs) = some (digitsOf cs) := by
  rw [placeValues?_of_forall_isDigit (forall_mem_significant_iff.2 h), significant_eq_filter rfl h]
  rfl

/-- **The reader of ten** gives each character its value in its place. -/
theorem bookValues?_eq (h : place + cs.length = 10) : bookValues? cs = placeValues? place cs := by
  induction cs generalizing place with
  | nil => rfl
  | cons c cs ih =>
    rw [placeValues?_cons]
    cases cs with
    | nil =>
      -- the end of ten characters is the one place for a letter
      obtain rfl : place = 9 := Nat.succ.inj h
      have hend : placeValues? 10 [] = some [] := rfl
      rw [hend]
      by_cases hletter : c = 'X' ∨ c = 'x'
      · rw [placeValue?, if_pos ⟨rfl, hletter⟩]
        rcases hletter with rfl | rfl
        · rfl
        · rfl
      · rw [placeValue?, if_neg fun hlast => hletter hlast.2]
        rw [not_or] at hletter
        simp [bookValues?, hletter, Option.map_eq_bind]
    | cons d cs =>
      have hplace : place ≠ 9 := by
        rw [List.length_cons, List.length_cons] at h
        omega
      have hnext : place + 1 + (d :: cs).length = 10 := by
        rw [List.length_cons] at h
        omega
      have hvalue : placeValue? place c = digit? c := if_neg fun hlast => hplace hlast.1
      rw [hvalue, ← ih hnext]
      rfl

end Values

/-! ## Numbers -/

section Numbers

variable {before between after cs : List Char} {c d : Char}

/-- **Weights of ten**, each apart from the others by a unit modulo eleven. -/
def weightsOfTen : List Nat :=
  [10, 9, 8, 7, 6, 5, 4, 3, 2, 1]

/-- **Weights of thirteen**, units modulo ten. -/
def weightsOfThirteen : List Nat :=
  [1, 3, 1, 3, 1, 3, 1, 3, 1, 3, 1, 3, 1]

theorem filter_eq_significant : (cs.filter fun c => c != '-' && c != ' ') = significant ['-', ' '] cs := by
  unfold significant
  refine List.filter_congr fun c _ => ?_
  rw [List.contains_cons, List.contains_cons, List.contains_nil, Bool.or_false, Bool.not_or]
  rfl

theorem isIsbn_eq : isIsbn cs =
    if (significant ['-', ' '] cs).length = 10 then isBookTen (significant ['-', ' '] cs)
    else if (significant ['-', ' '] cs).length = 13 then isBookThirteen (significant ['-', ' '] cs)
    else false := by
  unfold isIsbn
  simp only [filter_eq_significant, beq_iff_eq]

theorem isIsbn_congr {other : List Char} (h : significant ['-', ' '] cs = significant ['-', ' '] other) :
    isIsbn cs = isIsbn other := by
  rw [isIsbn_eq, isIsbn_eq, h]

theorem isIsbn_ten_iff (h : (significant ['-', ' '] cs).length = 10) :
    isIsbn cs = true ↔
      ∃ vs, placeValues? 0 (significant ['-', ' '] cs) = some vs ∧ weightedSum vs weightsOfTen % 11 = 0 := by
  rw [isIsbn_eq, if_pos h, isBookTen, bookValues?_eq ((Nat.zero_add _).trans h), Option.any_eq_true]
  simp only [beq_iff_eq]
  rfl

theorem isIsbn_thirteen_iff (h : (significant ['-', ' '] cs).length = 13) :
    isIsbn cs = true ↔ IsSpaced ['-', ' '] cs ∧ weightedSum (digitsOf cs) weightsOfThirteen % 10 = 0 := by
  have hten : (significant ['-', ' '] cs).length ≠ 10 := by omega
  have hread : isBookThirteen (significant ['-', ' '] cs) =
      (digits? ['-', ' '] cs).any fun ds => weightedSum ds weightsOfThirteen % 10 == 0 := rfl
  rw [isIsbn_eq, if_neg hten, if_pos h, hread, any_digits?_iff rfl, beq_iff_eq]

theorem isIsbn_eq_false (hten : (significant ['-', ' '] cs).length ≠ 10)
    (hthirteen : (significant ['-', ' '] cs).length ≠ 13) : isIsbn cs = false := by
  rw [isIsbn_eq, if_neg hten, if_neg hthirteen]

/-- **One character of ten apart.** -/
theorem isIsbn_ten_append_cons_iff (hc : c ∉ ['-', ' '])
    (h : (significant ['-', ' '] before).length + (significant ['-', ' '] after).length + 1 = 10) :
    isIsbn (before ++ c :: after) = true ↔ ∃ us v ws, placeValues? 0 (significant ['-', ' '] before) = some us ∧
      placeValue? (significant ['-', ' '] before).length c = some v ∧
      placeValues? ((significant ['-', ' '] before).length + 1) (significant ['-', ' '] after) = some ws ∧
      weightedSum (us ++ v :: ws) weightsOfTen % 11 = 0 := by
  have hlength : (significant ['-', ' '] (before ++ c :: after)).length = 10 :=
    (length_significant_append_cons hc).trans h
  rw [isIsbn_ten_iff hlength]
  simp only [significant_append, significant_cons hc, placeValues?_append_cons_eq_some_iff, Nat.zero_add]
  constructor
  · rintro ⟨_, ⟨us, v, ws, hus, hv, hws, rfl⟩, hsum⟩
    exact ⟨us, v, ws, hus, hv, hws, hsum⟩
  · rintro ⟨us, v, ws, hus, hv, hws, hsum⟩
    exact ⟨_, ⟨us, v, ws, hus, hv, hws, rfl⟩, hsum⟩

/-- **Two characters of ten apart.** -/
theorem isIsbn_ten_pair_iff (hc : c ∉ ['-', ' ']) (hd : d ∉ ['-', ' '])
    (h : (significant ['-', ' '] (before ++ c :: (between ++ d :: after))).length = 10) :
    isIsbn (before ++ c :: (between ++ d :: after)) = true ↔
      ∃ us v ms w ws, placeValues? 0 (significant ['-', ' '] before) = some us ∧
        placeValue? (significant ['-', ' '] before).length c = some v ∧
        placeValues? ((significant ['-', ' '] before).length + 1) (significant ['-', ' '] between) = some ms ∧
        placeValue? (significant ['-', ' '] (before ++ c :: between)).length d = some w ∧
        placeValues? ((significant ['-', ' '] (before ++ c :: between)).length + 1) (significant ['-', ' '] after) =
          some ws ∧
        weightedSum (us ++ v :: (ms ++ w :: ws)) weightsOfTen % 11 = 0 := by
  have hplace : (significant ['-', ' '] (before ++ c :: between)).length =
      (significant ['-', ' '] before).length + 1 + (significant ['-', ' '] between).length := by
    rw [length_significant_append_cons hc]
    omega
  rw [length_significant_append_cons hc] at h
  rw [isIsbn_ten_append_cons_iff hc h, significant_append, significant_cons hd, hplace]
  simp only [placeValues?_append_cons_eq_some_iff]
  constructor
  · rintro ⟨us, v, _, hus, hv, ⟨ms, w, ws, hms, hw, hws, rfl⟩, hsum⟩
    exact ⟨us, v, ms, w, ws, hus, hv, hms, hw, hws, hsum⟩
  · rintro ⟨us, v, ms, w, ws, hus, hv, hms, hw, hws, hsum⟩
    exact ⟨us, v, _, hus, hv, ⟨ms, w, ws, hms, hw, hws, rfl⟩, hsum⟩

/-- **One digit of thirteen apart.** -/
theorem isIsbn_thirteen_append_cons_iff (hc : Text.isDigit c = true)
    (h : (significant ['-', ' '] (before ++ c :: after)).length = 13) :
    isIsbn (before ++ c :: after) = true ↔ (IsSpaced ['-', ' '] before ∧ IsSpaced ['-', ' '] after) ∧
      weightedSum (digitsOf before ++ Text.digitValue c :: digitsOf after) weightsOfThirteen % 10 = 0 := by
  rw [isIsbn_thirteen_iff h, isSpaced_append_cons_iff hc, digitsOf_append, digitsOf_cons hc]

end Numbers

/-! ## Typing errors -/

section Errors

variable {before between after cs : List Char} {c d s : Char} {v w : Nat}

theorem isIsbn_separated (hs : s ∈ ['-', ' ']) : isIsbn (before ++ s :: after) = isIsbn (before ++ after) := by
  apply isIsbn_congr
  rw [significant_append, significant_cons_of_mem hs, ← significant_append]

theorem isIsbn_lettered (hc : c = 'X' ∨ c = 'x')
    (h : (significant ['-', ' '] before).length = 9 → significant ['-', ' '] after ≠ []) :
    isIsbn (before ++ c :: after) = false := by
  have hdigit : ¬Text.isDigit c = true := by
    rcases hc with rfl | rfl
    · exact Bool.false_ne_true
    · exact Bool.false_ne_true
  have hcharacter : c ∉ ['-', ' '] := by
    rcases hc with rfl | rfl
    · decide
    · decide
  rw [Bool.eq_false_iff]
  intro haccepts
  by_cases hten : (significant ['-', ' '] (before ++ c :: after)).length = 10
  · rw [length_significant_append_cons hcharacter] at hten
    obtain ⟨us, v, ws, -, hv, -, -⟩ := (isIsbn_ten_append_cons_iff hcharacter hten).1 haccepts
    by_cases hplace : (significant ['-', ' '] before).length = 9
    · apply h hplace
      apply List.length_eq_zero_iff.1
      omega
    · -- a letter has no value before the last place
      rw [placeValue?, if_neg fun hlast => hplace hlast.1, digit?, if_neg hdigit] at hv
      cases hv
  · by_cases hthirteen : (significant ['-', ' '] (before ++ c :: after)).length = 13
    · obtain ⟨hspaced, -⟩ := (isIsbn_thirteen_iff hthirteen).1 haccepts
      rcases hspaced c (List.mem_append_right before List.mem_cons_self) with h | h
      · exact hdigit h
      · exact hcharacter h
    · rw [isIsbn_eq_false hten hthirteen] at haccepts
      cases haccepts

theorem isIsbn_replacedTen_iff (haccepts : isIsbn (before ++ c :: after) = true)
    (hten : (significant ['-', ' '] (before ++ c :: after)).length = 10) (hc : c ∉ ['-', ' ']) (hd : d ∉ ['-', ' ']) :
    isIsbn (before ++ d :: after) = true ↔
      placeValue? (significant ['-', ' '] before).length d = placeValue? (significant ['-', ' '] before).length c := by
  rw [length_significant_append_cons hc] at hten
  obtain ⟨us, v, ws, hus, hv, hws, hsum⟩ := (isIsbn_ten_append_cons_iff hc hten).1 haccepts
  have hplace : us.length < weightsOfTen.length := by
    rw [length_placeValues? hus]
    rw [show weightsOfTen.length = 10 from rfl]
    omega
  rw [isIsbn_ten_append_cons_iff hd hten]
  constructor
  · -- the characters around the place keep their values
    rintro ⟨us', w, ws', hus', hw, hws', hreplaced⟩
    obtain rfl := Option.some.inj (hus.symm.trans hus')
    obtain rfl := Option.some.inj (hws.symm.trans hws')
    rw [weightedSum_replaced_iff (by decide) hplace (placeValue?_lt hv) (placeValue?_lt hw) hsum] at hreplaced
    rw [hv, hw, hreplaced]
  · intro hsame
    exact ⟨us, v, ws, hus, hsame.trans hv, hws, hsum⟩

theorem isIsbn_exchangedTen (haccepts : isIsbn (before ++ c :: (between ++ d :: after)) = true)
    (hten : (significant ['-', ' '] (before ++ c :: (between ++ d :: after))).length = 10)
    (hc : placeValue? (significant ['-', ' '] before).length c = some v)
    (hd : placeValue? (significant ['-', ' '] (before ++ c :: between)).length d = some w) (hne : v ≠ w) :
    isIsbn (before ++ d :: (between ++ c :: after)) = false := by
  have hcCharacter := not_mem_of_placeValue? hc
  have hdCharacter := not_mem_of_placeValue? hd
  have hcount : (significant ['-', ' '] before).length +
      ((significant ['-', ' '] between).length + (significant ['-', ' '] after).length + 1) + 1 = 10 := by
    rw [length_significant_append_cons hcCharacter, length_significant_append_cons hdCharacter] at hten
    exact hten
  have hexchangedTen : (significant ['-', ' '] (before ++ d :: (between ++ c :: after))).length = 10 := by
    rw [length_significant_append_cons hdCharacter, length_significant_append_cons hcCharacter]
    exact hcount
  obtain ⟨us, _, ms, _, ws, hus, hv, hms, hw, hws, hsum⟩ :=
    (isIsbn_ten_pair_iff hcCharacter hdCharacter hten).1 haccepts
  obtain rfl := placeValue?_unique hv hc
  obtain rfl := placeValue?_unique hw hd
  rw [Bool.eq_false_iff, ne_eq, isIsbn_ten_pair_iff hdCharacter hcCharacter hexchangedTen,
    length_significant_replaced hcCharacter hdCharacter]
  rintro ⟨us', w', ms', v', ws', hus', hw', hms', hv', hws', hexchanged⟩
  obtain rfl := Option.some.inj (hus.symm.trans hus')
  obtain rfl := Option.some.inj (hms.symm.trans hms')
  obtain rfl := Option.some.inj (hws.symm.trans hws')
  -- either character has its own value in the place of the other, or none there
  obtain rfl := placeValue?_unique hw hw'
  obtain rfl := placeValue?_unique hv hv'
  have hplaces : us.length + ms.length + 1 < weightsOfTen.length := by
    rw [length_placeValues? hus, length_placeValues? hms, show weightsOfTen.length = 10 from rfl]
    omega
  rw [weightedSum_exchanged_iff (by decide) hplaces (placeValue?_lt hv) (placeValue?_lt hw) hsum] at hexchanged
  exact hne hexchanged.symm

theorem isIsbn_replacedThirteen_iff (haccepts : isIsbn (before ++ c :: after) = true)
    (hthirteen : (significant ['-', ' '] (before ++ c :: after)).length = 13) (hc : c ∉ ['-', ' '])
    (hd : d ∉ ['-', ' ']) : isIsbn (before ++ d :: after) = true ↔ d = c := by
  have hmem (x : Char) : x ∈ before ++ x :: after := List.mem_append_right before List.mem_cons_self
  have hdigit : Text.isDigit c = true :=
    (((isIsbn_thirteen_iff hthirteen).1 haccepts).1 c (hmem c)).resolve_right hc
  have hreplacedThirteen := (length_significant_replaced hc hd).trans hthirteen
  constructor
  · intro hreplaced
    have hdigit' : Text.isDigit d = true :=
      (((isIsbn_thirteen_iff hreplacedThirteen).1 hreplaced).1 d (hmem d)).resolve_right hd
    obtain ⟨⟨hbefore, -⟩, hsum⟩ := (isIsbn_thirteen_append_cons_iff hdigit hthirteen).1 haccepts
    obtain ⟨-, hsum'⟩ := (isIsbn_thirteen_append_cons_iff hdigit' hreplacedThirteen).1 hreplaced
    have hplace : (digitsOf before).length < weightsOfThirteen.length := by
      rw [length_significant_append_cons hc, length_significant rfl hbefore] at hthirteen
      rw [length_digitsOf, show weightsOfThirteen.length = 13 from rfl]
      omega
    rw [weightedSum_replaced_iff (by decide) hplace (Text.digitValue_lt_ten hdigit) (Text.digitValue_lt_ten hdigit')
      hsum] at hsum'
    exact Text.eq_of_digitValue_eq hdigit' hdigit hsum'
  · rintro rfl
    exact haccepts

theorem isIsbn_lastTen (hspaced : IsSpaced ['-', ' '] cs) (hcount : cs.countP Text.isDigit = 9) :
    ∃! v, v ≤ 10 ∧ ∀ c, isIsbn (cs ++ [c]) = true ↔ placeValue? 9 c = some v := by
  have hnine : (significant ['-', ' '] cs).length = 9 := (length_significant rfl hspaced).trans hcount
  have hweights : (digitsOf cs).length = [10, 9, 8, 7, 6, 5, 4, 3, 2].length := length_digitsOf.trans hcount
  obtain ⟨v, hv, hlast⟩ := exists_last_value (show 0 < 11 by decide) hweights
  have haccepts : ∀ c, isIsbn (cs ++ [c]) = true ↔ placeValue? 9 c = some v := by
    intro c
    by_cases hc : c ∈ ['-', ' ']
    · -- a separator leaves the number one character short
      have hrejects : isIsbn (cs ++ [c]) = false := by
        rw [isIsbn_separated hc, List.append_nil]
        apply isIsbn_eq_false
        · omega
        · omega
      rw [hrejects]
      constructor
      · intro h
        cases h
      · intro h
        exact absurd hc (not_mem_of_placeValue? h)
    · have hten : (significant ['-', ' '] cs).length + (significant ['-', ' '] []).length + 1 = 10 := by
        rw [hnine]
        rfl
      rw [isIsbn_ten_append_cons_iff hc hten, hnine, placeValues?_significant hspaced]
      constructor
      · rintro ⟨us, w, ws, hus, hw, hws, hsum⟩
        obtain rfl := Option.some.inj hus
        obtain rfl := Option.some.inj hws
        rw [hw, (hlast w (placeValue?_lt hw)).1 hsum]
      · intro hc
        exact ⟨_, v, [], rfl, hc, rfl, (hlast v hv).2 rfl⟩
  refine ⟨v, ⟨Nat.le_of_lt_succ hv, haccepts⟩, ?_⟩
  rintro w ⟨hw, hothers⟩
  obtain ⟨c, hc⟩ := exists_placeValue? hw
  exact Option.some.inj (hc.symm.trans ((haccepts c).1 ((hothers c).2 hc)))

theorem isIsbn_lastThirteen (hspaced : IsSpaced ['-', ' '] cs) (hcount : cs.countP Text.isDigit = 12) :
    ∃! c, Text.isDigit c = true ∧ isIsbn (cs ++ [c]) = true := by
  have hweights : (digitsOf cs).length = [1, 3, 1, 3, 1, 3, 1, 3, 1, 3, 1, 3].length := length_digitsOf.trans hcount
  obtain ⟨v, hv, hlast⟩ := exists_last_value (show 0 < 10 by decide) hweights
  apply Text.existsUnique_isDigit hv
  intro c hc
  have hthirteen : (significant ['-', ' '] (cs ++ [c])).length = 13 := by
    rw [length_significant_append_cons (not_mem_of_isDigit rfl hc), length_significant rfl hspaced, hcount]
    rfl
  rw [isIsbn_thirteen_append_cons_iff hc hthirteen, and_iff_right ⟨hspaced, List.forall_mem_nil _⟩]
  exact hlast _ (Text.digitValue_lt_ten hc)

/-- **Book numbers catch typing errors.** What is accepted is refused with another value in one place, and a number of
ten also with two values exchanged, however far apart. Nine digits have one value to end with and twelve one digit. -/
theorem isIsbn_catchesTypingErrors : CatchesTypingErrors isIsbn ['-', ' '] where
  separated _ _ _ := isIsbn_separated
  counted _ := isIsbn_eq_false
  lettered _ _ _ := isIsbn_lettered
  replacedTen _ _ _ _ := isIsbn_replacedTen_iff
  exchangedTen _ _ _ _ _ _ _ := isIsbn_exchangedTen
  replacedThirteen _ _ _ _ := isIsbn_replacedThirteen_iff
  lastTen _ := isIsbn_lastTen
  lastThirteen _ := isIsbn_lastThirteen

example : isIsbn "0-8044-2957-X".toList = true ∧ isIsbn "0-8044-2597-X".toList = false ∧
    isIsbn "978-0-306-40615-7".toList = true := by decide

end Errors

end FormWiring.Check
