import FormWiring.Regex.CharSet
import Mathlib.Data.List.Basic
import Mathlib.Data.Nat.Init

/-!
# Characters but for case

Characters differ in case only when they fold to the same one. To find all that differ from a character so, it is enough
to look at the character itself if no run of the table covers it: its orbit is then what the table folds to it, and
that is a list which can be read off. Characters with no other case, as blanks are, have themselves as their orbit.

Main statements: `Variants.mem_caseOrbit_iff`, `CharSet.contains_foldCase_of_caseless`.
-/

set_option autoImplicit false

namespace FormWiring

namespace Text

variable {m n : Nat} {c d : Char}

/-! ## Codes -/

/-- A code folds to itself, or by a run that covers it. -/
theorem foldCode_cases (n : Nat) :
    foldCode n = n ∨ ∃ run ∈ foldingTable, run.covers n = true ∧ foldCode n = ((n : Int) + run.distance).toNat := by
  unfold foldCode
  by_cases hascii : n < 128
  · rw [if_pos hascii]
    by_cases hcapital : 0x41 ≤ n ∧ n ≤ 0x5A
    · -- the first run of the table is that of the ASCII capitals
      refine .inr ⟨⟨0x41, 26, 1, 32⟩, List.mem_cons_self, ?_, ?_⟩
      · simp only [FoldingRun.covers, Bool.and_eq_true, decide_eq_true_eq, beq_iff_eq]
        omega
      · simp only [hcapital.1, hcapital.2, decide_true, Bool.and_self, if_true]
        omega
    · left
      rw [if_neg]
      simpa using hcapital
  · rw [if_neg hascii]
    cases hfound : foldingTable.find? (·.covers n) with
    | none => exact .inl rfl
    | some run =>
      refine .inr ⟨run, List.mem_of_find?_eq_some hfound, ?_, rfl⟩
      exact List.find?_some (p := fun run : FoldingRun => run.covers n) hfound

theorem mem_unfoldCode_iff :
    n ∈ unfoldCode m ↔ n = m ∨ ∃ run ∈ foldingTable, run.covers n = true ∧ (n : Int) + run.distance = m := by
  unfold unfoldCode
  rw [List.mem_cons, List.mem_filterMap]
  refine or_congr_right (exists_congr fun run => and_congr_right fun _ => ?_)
  simp only [Option.ite_none_right_eq_some, Bool.and_eq_true, beq_iff_eq, Option.some.injEq]
  constructor
  · rintro ⟨⟨hcovers, hdistance⟩, rfl⟩
    exact ⟨hcovers, hdistance⟩
  · rintro ⟨hcovers, hdistance⟩
    have hsource : ((m : Int) - run.distance).toNat = n := by omega
    rw [hsource]
    exact ⟨⟨hcovers, hdistance⟩, rfl⟩

theorem mem_unfoldCode_of_foldCode_eq (hm : m ≠ 0) (h : foldCode n = m) : n ∈ unfoldCode m := by
  rw [mem_unfoldCode_iff]
  rcases foldCode_cases n with hsame | ⟨run, hrun, hcovers, hfold⟩
  · exact .inl (hsame.symm.trans h)
  · exact .inr ⟨run, hrun, hcovers, by omega⟩

/-! ## Characters -/

/-- **Variants** of a folded character: all characters that fold to it. -/
structure Variants (d : Char) (variants : List Char) : Prop where
  notNull : d.toNat ≠ 0
  folded : ∀ run ∈ foldingTable, run.covers d.toNat = false
  complete : unfoldCode d.toNat = variants.map Char.toNat
  fold : ∀ v ∈ variants, foldCode v.toNat = d.toNat

instance (d : Char) (variants : List Char) : Decidable (Variants d variants) :=
  decidable_of_iff (d.toNat ≠ 0 ∧ (∀ run ∈ foldingTable, run.covers d.toNat = false) ∧
    unfoldCode d.toNat = variants.map Char.toNat ∧ variants.all fun v => foldCode v.toNat = d.toNat)
    ⟨fun ⟨hnull, hfolded, hcomplete, hfold⟩ => ⟨hnull, hfolded, hcomplete, by simpa using hfold⟩,
      fun h => ⟨h.notNull, h.folded, h.complete, by simpa using h.fold⟩⟩

/-- **A folded character in an orbit** shows the orbit to be that of its variants. -/
theorem Variants.mem_caseOrbit_iff {variants : List Char} (h : Variants d variants) :
    d ∈ caseOrbit c ↔ c ∈ variants := by
  have hfold : d ∈ caseOrbit c ↔ foldCode c.toNat = d.toNat := by
    unfold caseOrbit
    rw [List.mem_map]
    constructor
    · rintro ⟨n, hn, rfl⟩
      -- a number that is no character would give the null character
      have hvalid : n.isValidChar := by
        by_contra hinvalid
        exact h.notNull (by rw [Char.ofNat, dif_neg hinvalid]; rfl)
      have hcode : (Char.ofNat n).toNat = n := by
        rw [Char.ofNat, dif_pos hvalid]
        rfl
      have hfolded := h.folded
      rw [hcode] at hfolded ⊢
      rcases mem_unfoldCode_iff.1 hn with hsame | ⟨run, hrun, hcovers, -⟩
      · exact hsame.symm
      · rw [hfolded run hrun] at hcovers
        cases hcovers
    · intro hfold
      exact ⟨d.toNat, hfold ▸ List.mem_cons_self, Char.ofNat_toNat d⟩
  rw [hfold]
  constructor
  · intro hc
    have hmem := mem_unfoldCode_of_foldCode_eq h.notNull hc
    rw [h.complete, List.mem_map] at hmem
    obtain ⟨v, hv, hcode⟩ := hmem
    rwa [← Char.toNat_inj.1 hcode]
  · exact h.fold c

/-- **Variants of listed characters** are read off the table. -/
theorem variants_of_mem (variants : Char → List Char) {letters : List Char}
    (h : (letters.all fun d => decide (Variants d (variants d))) = true) (hc : c ∈ letters) :
    Variants c (variants c) :=
  of_decide_eq_true (List.all_eq_true.1 h c hc)

/-- **Blanks**, written out. -/
def blanks : List Char :=
  ['\t', '\n', '\x0b', '\x0c', '\r', ' ', '\u0085', '\u00a0', '\u1680', '\u2000', '\u2001', '\u2002', '\u2003', '\u2004',
    '\u2005', '\u2006', '\u2007', '\u2008', '\u2009', '\u200a', '\u2028', '\u2029', '\u202f', '\u205f', '\u3000']

theorem mem_blanks_of_isBlank (h : isBlank c = true) : c ∈ blanks := by
  have hcode : c.toNat ∈ blanks.map Char.toNat := by
    simp only [isBlank, Bool.or_eq_true, Bool.and_eq_true, decide_eq_true_eq, beq_iff_eq] at h
    simp [blanks]
    omega
  obtain ⟨b, hb, hcode⟩ := List.mem_map.1 hcode
  rwa [← Char.toNat_inj.1 hcode]

set_option maxRecDepth 20000 in
theorem variants_of_isBlank (h : isBlank c = true) : Variants c [c] :=
  variants_of_mem (fun b => [b]) (by decide) (mem_blanks_of_isBlank h)

end Text

/-! ## Sets -/

namespace Regex.CharSet

open Text (Variants)

variable {c d : Char} {s : CharSet}

theorem contains_foldCase_iff : (foldCase s).contains c = true ↔ ∃ d ∈ Text.caseOrbit c, s.contains d = true := by
  rw [contains, List.any_eq_true]

/-- **Characters with one case only** are the same when case is ignored. -/
theorem contains_foldCase_of_caseless (h : ∀ d, s.contains d = true → Variants d [d]) :
    (foldCase s).contains c = true ↔ s.contains c = true := by
  rw [contains_foldCase_iff]
  constructor
  · rintro ⟨d, horbit, hd⟩
    have hc : c ∈ [d] := (h d hd).mem_caseOrbit_iff.1 horbit
    rwa [List.mem_singleton.1 hc]
  · intro hc
    exact ⟨c, (h c hc).mem_caseOrbit_iff.2 (List.mem_singleton.2 rfl), hc⟩

end Regex.CharSet

end FormWiring
