import FormWiring.Proofs.ReadingSets

/-!
# Reading repetitions before a closing bracket

The bounds of a repetition are read from a text as they are read with a closing bracket behind it, and so is the mark of
a lazy one. A brace that dangles at the end of the text has no bounds, whatever is behind it.

Main statements: `agrees_boundsRead?`, `boundsRead?_append_closing`.
-/

set_option autoImplicit false

namespace FormWiring.Regex

variable {n : Nat} {cs cs' : List Char}

/-! ## Counts -/

theorem trails_dropWhile_isBlank (h : Trails (closing n) cs cs') :
    Trails (closing n) (cs.dropWhile Text.isBlank) (cs'.dropWhile Text.isBlank) := by
  induction cs generalizing cs' with
  | nil =>
    cases h with
    | nothing => exact .nothing
    | other =>
      have hblank : Text.isBlank ')' = false := by decide
      rw [closing, List.dropWhile_cons_of_neg (by simp [hblank])]
      exact .other
  | cons c rest ih =>
    cases h with
    | cons _ _ =>
      by_cases hc : Text.isBlank c = true
      · rw [List.dropWhile_cons_of_pos hc, List.dropWhile_cons_of_pos hc]
        exact ih (trails_append _ rest)
      · rw [List.dropWhile_cons_of_neg hc, List.dropWhile_cons_of_neg hc]
        exact .cons c rest

theorem suffix_readCountDigits (flags : Flags) (digits : List Char) (fuel : Nat) (cs : List Char) :
    (readCountDigits flags digits fuel cs).2 <:+ cs := by
  induction fuel generalizing digits cs with
  | zero => exact List.suffix_rfl
  | succ fuel ih =>
    cases cs with
    | nil => exact List.suffix_rfl
    | cons c rest =>
      rw [readCountDigits]
      split_ifs
      · exact ((ih _ _).trans (suffix_skipBlanks flags rest)).trans (List.suffix_cons c rest)
      · exact List.dropWhile_suffix _

theorem trails_readCountDigits (flags : Flags) (digits : List Char) {fuel fuel' : Nat}
    (h : Trails (closing n) cs cs') (hfuel : cs.length < fuel) (hfuel' : cs'.length < fuel') :
    (readCountDigits flags digits fuel cs).1 = (readCountDigits flags digits fuel' cs').1 ∧
      Trails (closing n) (readCountDigits flags digits fuel cs).2 (readCountDigits flags digits fuel' cs').2 := by
  induction fuel generalizing digits fuel' cs cs' with
  | zero => omega
  | succ fuel ih =>
    cases fuel' with
    | zero => omega
    | succ fuel' =>
      cases h with
      | nothing => exact ⟨rfl, .nothing⟩
      | other => exact ⟨rfl, trails_dropWhile_isBlank .other⟩
      | cons c rest =>
        have hlength := (suffix_skipBlanks flags rest).length_le
        have hlength' := (suffix_skipBlanks flags (rest ++ closing n)).length_le
        simp only [List.length_cons] at hfuel hfuel'
        simp only [readCountDigits]
        split_ifs
        · exact ih _ (trails_skipBlanks flags (trails_append _ rest)) (by omega) (by omega)
        · exact ⟨rfl, trails_dropWhile_isBlank (.cons c rest)⟩

/-- **Value of a count**: nothing without digits; the outer option is a number too large. -/
def countOf? (digits : List Char) : Option (Option Nat) :=
  if digits.isEmpty then some none
  else if Text.digitsValue 10 digits < UInt32.size then some (some (Text.digitsValue 10 digits))
  else none

/-- **Digits of a count**, after the blanks in front, and what follows them. -/
def countDigits (flags : Flags) (cs : List Char) : List Char × List Char :=
  readCountDigits flags [] ((cs.dropWhile Text.isBlank).length + 1) (cs.dropWhile Text.isBlank)

theorem readCount_eq (flags : Flags) (cs : List Char) :
    readCount flags cs =
      (countOf? (countDigits flags cs).1).map fun count => (count, (countDigits flags cs).2) := by
  unfold readCount countDigits countOf?
  dsimp only
  split_ifs <;> rfl

theorem leaves_readCount (flags : Flags) : Leaves (readCount flags) := by
  intro cs count rest h
  rw [readCount_eq] at h
  obtain ⟨count, -, ⟨⟩⟩ := Option.map_eq_some_iff.1 h
  exact (suffix_readCountDigits flags _ _ _).trans (List.dropWhile_suffix _)

theorem agrees_readCount (flags : Flags) (h : Trails (closing n) cs cs') :
    Agrees (closing n) Always (readCount flags cs) (readCount flags cs') := by
  have htrails := trails_readCountDigits flags [] (trails_dropWhile_isBlank h) (Nat.lt_succ_self _) (Nat.lt_succ_self _)
  rw [readCount_eq, readCount_eq, show (countDigits flags cs).1 = (countDigits flags cs').1 from htrails.1]
  exact .of_option (closing_ne_nil n) _ htrails.2

/-! ## Bounds -/

/-- **End of bounds** with an upper one. -/
def boundsEnd? (least most : Nat) : List Char → Option ((Nat × Option Nat) × List Char)
  | '\x7d' :: rest => if least ≤ most then some ((least, some most), rest) else none
  | _ => none

/-- **Bounds after their comma.** -/
def boundsMost? (flags : Flags) (least : Nat) (cs : List Char) : Option ((Nat × Option Nat) × List Char) :=
  match cs with
  | '\x7d' :: rest => some ((least, none), rest)
  | _ => (readCount flags cs).bind fun (most, rest) => most.bind fun most => boundsEnd? least most rest

/-- **Bounds after their first count.** -/
def boundsAfter? (flags : Flags) (least : Nat) : List Char → Option ((Nat × Option Nat) × List Char)
  | '\x7d' :: rest => some ((least, some least), rest)
  | ',' :: rest => boundsMost? flags least (skipBlanks flags rest)
  | _ => none

/-- **Bounds** with what is left of the text apart. -/
def boundsRead? (flags : Flags) (cs : List Char) : Option ((Nat × Option Nat) × List Char) :=
  (readBounds? flags cs).map fun (least, most, rest) => ((least, most), rest)

theorem boundsEnd?_of_ne (least most : Nat) (h : ∀ rest, cs ≠ '\x7d' :: rest) : boundsEnd? least most cs = none := by
  unfold boundsEnd?
  split
  · exact absurd rfl (h _)
  · rfl

theorem boundsMost?_of_ne (flags : Flags) (least : Nat) (h : ∀ rest, cs ≠ '\x7d' :: rest) :
    boundsMost? flags least cs =
      (readCount flags cs).bind fun (most, rest) => most.bind fun most => boundsEnd? least most rest := by
  unfold boundsMost?
  split
  · exact absurd rfl (h _)
  · rfl

theorem boundsAfter?_of_ne (flags : Flags) (least : Nat) (hbrace : ∀ rest, cs ≠ '\x7d' :: rest)
    (hcomma : ∀ rest, cs ≠ ',' :: rest) : boundsAfter? flags least cs = none := by
  unfold boundsAfter?
  split
  · exact absurd rfl (hbrace _)
  · exact absurd rfl (hcomma _)
  · rfl

theorem boundsRead?_eq (flags : Flags) (cs : List Char) :
    boundsRead? flags cs =
      (readCount flags (skipBlanks flags cs)).bind fun (least, rest) =>
        least.bind fun least => boundsAfter? flags least rest := by
  unfold boundsRead? readBounds?
  rcases readCount flags (skipBlanks flags cs) with _ | ⟨_ | least, rest⟩
  · rfl
  · rfl
  · simp only [Option.bind_some, bind]
    split
    · rfl
    · rename_i more
      rw [show boundsAfter? flags least (',' :: more) = boundsMost? flags least (skipBlanks flags more) from rfl]
      split
      · rename_i hbrace
        rw [hbrace]
        rfl
      · rename_i hbrace
        rw [boundsMost?_of_ne flags least hbrace]
        rcases readCount flags (skipBlanks flags more) with _ | ⟨_ | most, rest⟩
        · rfl
        · rfl
        · simp only [Option.bind_some]
          split
          · rw [boundsEnd?]
            split_ifs <;> rfl
          · rename_i hend
            rw [boundsEnd?_of_ne least most hend]
            rfl
    · rename_i hbrace hcomma
      rw [boundsAfter?_of_ne flags least hbrace hcomma]
      rfl

theorem leaves_boundsEnd? (least most : Nat) : Leaves (boundsEnd? least most) := by
  intro cs bounds rest h
  unfold boundsEnd? at h
  split at h
  · split_ifs at h
    cases h
    exact List.suffix_cons _ _
  · cases h

theorem leaves_boundsMost? (flags : Flags) (least : Nat) : Leaves (boundsMost? flags least) := by
  intro cs bounds rest h
  unfold boundsMost? at h
  split at h
  · cases h
    exact List.suffix_cons _ _
  · obtain ⟨⟨count, more⟩, hcount, h⟩ := Option.bind_eq_some_iff.1 h
    obtain ⟨most, -, h⟩ := Option.bind_eq_some_iff.1 h
    exact (leaves_boundsEnd? least most _ _ _ h).trans (leaves_readCount flags _ _ _ hcount)

theorem leaves_boundsAfter? (flags : Flags) (least : Nat) : Leaves (boundsAfter? flags least) := by
  intro cs bounds rest h
  unfold boundsAfter? at h
  split at h
  · cases h
    exact List.suffix_cons _ _
  · exact ((leaves_boundsMost? flags least _ _ _ h).trans (suffix_skipBlanks flags _)).trans (List.suffix_cons _ _)
  · cases h

theorem leaves_boundsRead? (flags : Flags) : Leaves (boundsRead? flags) := by
  intro cs bounds rest h
  rw [boundsRead?_eq] at h
  obtain ⟨⟨count, more⟩, hcount, h⟩ := Option.bind_eq_some_iff.1 h
  obtain ⟨least, -, h⟩ := Option.bind_eq_some_iff.1 h
  exact ((leaves_boundsAfter? flags least _ _ _ h).trans (leaves_readCount flags _ _ _ hcount)).trans
    (suffix_skipBlanks flags cs)

theorem agrees_boundsEnd? (least most : Nat) (h : Trails (closing n) cs cs') :
    Agrees (closing n) Always (boundsEnd? least most cs) (boundsEnd? least most cs') := by
  cases h with
  | nothing => exact .none
  | other => exact .none
  | cons c rest =>
    by_cases hc : c = '\x7d'
    · subst hc
      simp only [boundsEnd?]
      split_ifs
      · exact .some (closing_ne_nil n) (trails_append _ rest)
      · exact .none
    · rw [boundsEnd?_of_ne least most (cons_ne_cons_of_ne hc _), boundsEnd?_of_ne least most (cons_ne_cons_of_ne hc _)]
      exact .none

theorem agrees_boundsMost? (flags : Flags) (least : Nat) (h : Trails (closing n) cs cs') :
    Agrees (closing n) Always (boundsMost? flags least cs) (boundsMost? flags least cs') := by
  by_cases hbrace : ∃ rest, cs = '\x7d' :: rest
  · obtain ⟨rest, rfl⟩ := hbrace
    cases h with
    | cons _ rest => exact .some (closing_ne_nil n) (trails_append _ rest)
  · have hcs : ∀ rest, cs ≠ '\x7d' :: rest := fun rest heq => hbrace ⟨rest, heq⟩
    have hcs' : ∀ rest, cs' ≠ '\x7d' :: rest := by
      rintro rest rfl
      cases h with
      | cons _ rest => exact hcs rest rfl
    rw [boundsMost?_of_ne flags least hcs, boundsMost?_of_ne flags least hcs']
    refine (agrees_readCount flags h).bind (fun count cs bounds rest h => ?_) (fun _ _ _ _ _ _ => trivial)
      fun count rest rest' _ _ htrails => .bind_left fun most _ => agrees_boundsEnd? least most htrails
    obtain ⟨most, -, h⟩ := Option.bind_eq_some_iff.1 h
    exact leaves_boundsEnd? least most _ _ _ h

theorem agrees_boundsAfter? (flags : Flags) (least : Nat) (h : Trails (closing n) cs cs') :
    Agrees (closing n) Always (boundsAfter? flags least cs) (boundsAfter? flags least cs') := by
  cases h with
  | nothing => exact .none
  | other => exact .none
  | cons c rest =>
    by_cases hbrace : c = '\x7d'
    · subst hbrace
      exact .some (closing_ne_nil n) (trails_append _ rest)
    by_cases hcomma : c = ','
    · subst hcomma
      exact agrees_boundsMost? flags least (trails_skipBlanks flags (trails_append _ rest))
    rw [boundsAfter?_of_ne flags least (cons_ne_cons_of_ne hbrace _) (cons_ne_cons_of_ne hcomma _),
      boundsAfter?_of_ne flags least (cons_ne_cons_of_ne hbrace _) (cons_ne_cons_of_ne hcomma _)]
    exact .none

/-- **Bounds of repetitions agree.** -/
theorem agrees_boundsRead? (flags : Flags) (h : Trails (closing n) cs cs') :
    Agrees (closing n) Always (boundsRead? flags cs) (boundsRead? flags cs') := by
  rw [boundsRead?_eq, boundsRead?_eq]
  refine (agrees_readCount flags (trails_skipBlanks flags h)).bind (fun count cs bounds rest h => ?_)
    (fun _ _ _ _ _ _ => trivial)
    fun count rest rest' _ _ htrails => .bind_left fun least _ => agrees_boundsAfter? flags least htrails
  obtain ⟨least, -, h⟩ := Option.bind_eq_some_iff.1 h
  exact leaves_boundsAfter? flags least _ _ _ h

/-- A repetition has no bounds where a brace dangles. -/
theorem boundsRead?_append_closing (flags : Flags) (h : skipBlanks flags cs = []) :
    boundsRead? flags (cs ++ closing n) = none := by
  rw [boundsRead?_eq]
  have hskip := trails_skipBlanks flags (trails_append (closing n) cs)
  rw [h] at hskip
  generalize skipBlanks flags (cs ++ closing n) = ds at hskip
  cases hskip with
  | nothing => rfl
  | other => rfl

theorem suffix_afterLazy (cs : List Char) : afterLazy cs <:+ cs := by
  unfold afterLazy
  split
  · exact List.suffix_cons _ _
  · exact List.suffix_rfl

theorem trails_afterLazy (h : Trails (closing n) cs cs') : Trails (closing n) (afterLazy cs) (afterLazy cs') := by
  cases h with
  | nothing => exact .nothing
  | other => exact .other
  | cons c rest =>
    by_cases hc : c = '?'
    · subst hc
      exact trails_append _ rest
    · have hne (rest : List Char) : afterLazy (c :: rest) = c :: rest := by
        unfold afterLazy
        split <;> simp_all
      rw [hne, hne]
      exact .cons c rest

end FormWiring.Regex
