import FormWiring.Proofs.ReadingBounds

/-!
# Reading groups before a closing bracket

The body of a group is read from a text as it is read with a closing bracket behind it: it ends before that bracket, or
in a comment that goes on through it, and otherwise where it ends in the text. A body is read item by item, and each
item leaves the end of what it was given. Bodies, groups and what is inside of groups read each other, so what they
leave and that they agree is shown of the three at once, by induction on the fuel.

Main statements: `leaves_readBody?`, `agrees_readBody?`.
-/

set_option autoImplicit false

namespace FormWiring.Regex

variable {n : Nat} {cs cs' : List Char}

/-! ## Heads of groups -/

theorem leaves_readGroupName? (seen : List (List Char)) : Leaves (readGroupName? seen) := by
  intro cs name rest h
  unfold readGroupName? at h
  dsimp only at h
  split at h
  · rename_i hdrop
    split_ifs at h
    cases h
    have hsuffix := List.dropWhile_suffix (l := cs) (· != '>')
    rw [hdrop] at hsuffix
    exact (List.suffix_cons _ _).trans hsuffix
  · cases h

/-- **Names of groups** are read before the closing text as without it. -/
theorem readGroupName?_append (n : Nat) (seen : List (List Char)) (cs : List Char) :
    readGroupName? seen (cs ++ closing n) =
      (readGroupName? seen cs).map (Prod.map id (· ++ closing n)) := by
  have hp : ∀ c ∈ closing n, (c != '>') = true := by simp [closing, List.mem_replicate]
  unfold readGroupName?
  dsimp only
  rw [dropWhile_append_closing hp]
  cases hdrop : cs.dropWhile (· != '>') with
  | nil =>
    rw [List.isEmpty_nil, if_pos rfl]
    split <;> simp_all
  | cons c rest =>
    have hne : c :: rest ≠ [] := List.cons_ne_nil c rest
    rw [takeWhile_append_of_dropWhile (hdrop ▸ hne), List.isEmpty_cons, if_neg Bool.false_ne_true]
    cases cs.takeWhile (· != '>') with
    | nil => rfl
    | cons first more =>
      dsimp only [List.cons_append]
      split_ifs <;> rfl

theorem agrees_readGroupName? (seen : List (List Char)) (cs : List Char) :
    Agrees (closing n) Always (readGroupName? seen cs) (readGroupName? seen (cs ++ closing n)) := by
  rw [readGroupName?_append]
  cases readGroupName? seen cs with
  | none => exact .none
  | some found => exact .some (closing_ne_nil n) (trails_append _ found.2)

/-- **Flags of a group head** with what is left of the text apart. -/
def flagsRead? (flags : Flags) (value : Bool) (seen : List Char) (cs : List Char) :
    Option ((Flags × List Char) × List Char) :=
  (flags.read? value seen cs).map fun (flags, seen, rest) => ((flags, seen), rest)

theorem flagsRead?_nil (flags : Flags) (value : Bool) (seen : List Char) : flagsRead? flags value seen [] = none :=
  rfl

theorem flagsRead?_cons (flags : Flags) (value : Bool) (seen : List Char) (c : Char) (rest : List Char) :
    flagsRead? flags value seen (c :: rest) =
      if c == ':' || c == ')' then if seen.head? == some '-' then none else some ((flags, seen), c :: rest)
      else if seen.contains c then none
      else if c == '-' then flagsRead? flags false (c :: seen) rest
      else (flags.put? c value).bind fun flags => flagsRead? flags value (c :: seen) rest := by
  unfold flagsRead?
  rw [Flags.read?]
  split_ifs
  · rfl
  · rfl
  · rfl
  · rfl
  · cases flags.put? c value <;> rfl

theorem leaves_flagsRead? (flags : Flags) (value : Bool) (seen : List Char) : Leaves (flagsRead? flags value seen) := by
  intro cs found rest h
  induction cs generalizing flags value seen with
  | nil => cases h
  | cons c more ih =>
    rw [flagsRead?_cons] at h
    split_ifs at h
    · cases h
      exact List.suffix_rfl
    · exact (ih _ _ _ h).trans (List.suffix_cons c more)
    · obtain ⟨flags', -, h⟩ := Option.bind_eq_some_iff.1 h
      exact (ih _ _ _ h).trans (List.suffix_cons c more)

/-- **Flags agree**, unless they end at the end of the text. -/
theorem agrees_flagsRead? (flags : Flags) (value : Bool) (seen : List Char) (cs : List Char) :
    Agrees (closing n) (fun _ rest => rest ≠ []) (flagsRead? flags value seen cs)
      (flagsRead? flags value seen (cs ++ closing n)) := by
  induction cs generalizing flags value seen with
  | nil =>
    rw [flagsRead?_nil]
    refine .of_none_of_forall fun found rest heq hrest => hrest ?_
    rw [List.nil_append, closing, flagsRead?_cons] at heq
    split_ifs at heq
    all_goals simp_all
  | cons c rest ih =>
    rw [List.cons_append, flagsRead?_cons, flagsRead?_cons]
    split_ifs
    · exact .none
    · exact .some (closing_ne_nil n) (.cons c rest)
    · exact .none
    · exact ih _ _ _
    · exact .bind_left fun flags _ => ih _ _ _

theorem looksAround_append (n : Nat) (cs : List Char) : looksAround (cs ++ closing n) = looksAround cs := by
  match cs with
  | [] => rfl
  | [c] => simp [looksAround, closing, List.isPrefixOf]
  | [c, d] => simp [looksAround, closing, List.isPrefixOf]
  | c :: d :: e :: rest => simp [looksAround, List.isPrefixOf]

/-- **After the mark of a name**, where a group has one. -/
def nameMark? : List Char → Option (List Char)
  | '?' :: 'P' :: '<' :: rest | '?' :: '<' :: rest => some rest
  | _ => none

/-- **After the mark of flags**, where a group has one. -/
def flagMark? : List Char → Option (List Char)
  | '?' :: rest => some rest
  | _ => none

theorem nameMark?_append (n : Nat) (cs : List Char) :
    nameMark? (cs ++ closing n) = (nameMark? cs).map (· ++ closing n) := by
  match cs with
  | [] => rfl
  | [c] =>
    unfold nameMark?
    split <;> simp_all [closing]
  | [c, d] =>
    unfold nameMark?
    split <;> simp_all [closing]
  | c :: d :: e :: rest =>
    have hmark (rest : List Char) : nameMark? (c :: d :: e :: rest) =
        if c = '?' ∧ d = 'P' ∧ e = '<' then some rest else if c = '?' ∧ d = '<' then some (e :: rest) else none := by
      unfold nameMark?
      split <;> simp_all
      grind
    rw [List.cons_append, List.cons_append, List.cons_append, hmark, hmark]
    split_ifs <;> rfl

theorem flagMark?_append (n : Nat) (cs : List Char) :
    flagMark? (cs ++ closing n) = (flagMark? cs).map (· ++ closing n) := by
  cases cs with
  | nil => rfl
  | cons c rest =>
    unfold flagMark?
    simp only [List.cons_append]
    split <;> simp_all

/-! ## Characters and escapes -/

/-- **Pattern of an item.** -/
def patternOf? (flags : Flags) : Primitive → Option Pattern
  | .literal c => (literalSet? flags c).map .set
  | .set s => some (.set s)
  | .anchor a => some (.anchor a)

theorem readPrimitive?_escape (flags : Flags) (rest : List Char) :
    readPrimitive? flags ('\\' :: rest) = convert? (patternOf? flags) (readEscape? flags rest) := by
  rw [readPrimitive?]
  rcases readEscape? flags rest with _ | ⟨c | s | a, rest⟩
  · rfl
  · simp only [convert?, Option.bind_some, bind, patternOf?]
    cases literalSet? flags c <;> rfl
  · rfl
  · rfl

/-- What a character stands for does not depend on what follows it. -/
theorem readPrimitive?_of_ne (flags : Flags) {c : Char} (hc : c ≠ '\\') :
    ∃ o : Option Pattern, ∀ rest, readPrimitive? flags (c :: rest) = o.map fun p => (p, rest) := by
  by_cases hdot : c = '.'
  · subst hdot
    refine ⟨(dotSet? flags).map .set, fun rest => ?_⟩
    rw [readPrimitive?, Option.map_map]
    rfl
  by_cases hstart : c = '^'
  · subst hstart
    exact ⟨some _, fun _ => rfl⟩
  by_cases hend : c = '$'
  · subst hend
    exact ⟨some _, fun _ => rfl⟩
  refine ⟨(literalSet? flags c).map .set, fun rest => ?_⟩
  rw [Option.map_map]
  unfold readPrimitive?
  split <;> simp_all
  rfl

theorem consumes_readPrimitive? (flags : Flags) : Consumes (readPrimitive? flags) := by
  intro cs p rest h
  cases cs with
  | nil => cases h
  | cons c more =>
    refine suffix_cons_of_suffix ?_
    by_cases hc : c = '\\'
    · subst hc
      rw [readPrimitive?_escape] at h
      obtain ⟨primitive, hescape, -⟩ := convert?_eq_some_iff.1 h
      exact (consumes_readEscape? flags _ _ _ hescape).1
    · obtain ⟨o, ho⟩ := readPrimitive?_of_ne flags hc
      rw [ho] at h
      obtain ⟨p, -, ⟨⟩⟩ := Option.map_eq_some_iff.1 h
      exact List.suffix_rfl

/-- **Characters and escapes agree**, unless a brace is left that dangles. -/
theorem agrees_readPrimitive? (flags : Flags) (c : Char) (rest : List Char) :
    Agrees (closing n) (fun _ rest => ¬Dangling flags rest) (readPrimitive? flags (c :: rest))
      (readPrimitive? flags (c :: (rest ++ closing n))) := by
  by_cases hc : c = '\\'
  · subst hc
    rw [readPrimitive?_escape, readPrimitive?_escape]
    exact (agrees_readEscape? flags (trails_append _ rest)).convert _ fun _ _ _ _ hseen hdangling => hseen hdangling.2
  · obtain ⟨o, ho⟩ := readPrimitive?_of_ne flags hc
    rw [ho, ho]
    exact .of_option (closing_ne_nil n) o (trails_append _ rest)

/-! ## Bodies -/

/-- **Next item of a body**, from its first character on; a bar and a repetition change the body in place. -/
def readPiece? (fuel : Nat) (b : Body) (c : Char) (rest : List Char) : Option (Body × List Char) :=
  match c with
  | '(' => readGroup? fuel b (skipBlanks b.flags rest)
  | '|' => some ({ b with choices := b.sequence :: b.choices, items := [] }, rest)
  | '[' => (readSet? b.flags (2 * rest.length + 2) rest).map fun (s, rest) => (b.push (.set s), rest)
  | '?' => (b.repeatLast? 0 (some 1)).map fun b => (b, afterLazy rest)
  | '*' => (b.repeatLast? 0 none).map fun b => (b, afterLazy rest)
  | '+' => (b.repeatLast? 1 none).map fun b => (b, afterLazy rest)
  | '\x7b' =>
    (boundsRead? b.flags rest).bind fun ((least, most), rest) =>
      (b.repeatLast? least most).map fun repeated => (repeated, afterLazy (skipBlanks b.flags rest))
  | c => (readPrimitive? b.flags (c :: rest)).map fun (p, rest) => (b.push p, rest)

theorem readBody?_succ (fuel : Nat) (b : Body) (cs : List Char) :
    readBody? (fuel + 1) b cs =
      match skipBlanks b.flags cs with
      | [] => some (b, [])
      | c :: rest =>
        if c = ')' then some (b, c :: rest)
        else (readPiece? fuel b c rest).bind fun (b, rest) => readBody? fuel b rest := by
  rw [readBody?]
  generalize skipBlanks b.flags cs = ds
  match ds with
  | [] => rfl
  | c :: rest =>
    by_cases hc : c = ')'
    · subst hc
      rfl
    dsimp only
    rw [if_neg hc]
    unfold readPiece?
    split
    · simp_all
    · simp_all
    · obtain ⟨rfl, rfl⟩ := List.cons.inj ‹c :: rest = _›
      rfl
    · obtain ⟨rfl, rfl⟩ := List.cons.inj ‹c :: rest = _›
      rfl
    · obtain ⟨rfl, rfl⟩ := List.cons.inj ‹c :: rest = _›
      cases readSet? b.flags (2 * rest.length + 2) rest <;> rfl
    · obtain ⟨rfl, rfl⟩ := List.cons.inj ‹c :: rest = _›
      cases b.repeatLast? 0 (some 1) <;> rfl
    · obtain ⟨rfl, rfl⟩ := List.cons.inj ‹c :: rest = _›
      cases b.repeatLast? 0 none <;> rfl
    · obtain ⟨rfl, rfl⟩ := List.cons.inj ‹c :: rest = _›
      cases b.repeatLast? 1 none <;> rfl
    · obtain ⟨rfl, rfl⟩ := List.cons.inj ‹c :: rest = _›
      unfold boundsRead?
      rcases readBounds? b.flags rest with _ | ⟨least, most, more⟩
      · rfl
      · simp only [Option.bind_some, bind, Option.map_some]
        cases b.repeatLast? least most <;> rfl
    · split <;> simp_all
      cases readPrimitive? b.flags (c :: rest) <;> rfl

theorem readBody?_of_nil {b : Body} (fuel : Nat) (h : skipBlanks b.flags cs = []) :
    readBody? (fuel + 1) b cs = some (b, []) := by
  rw [readBody?_succ, h]

theorem readBody?_of_close {b : Body} {rest : List Char} (fuel : Nat) (h : skipBlanks b.flags cs = ')' :: rest) :
    readBody? (fuel + 1) b cs = some (b, ')' :: rest) := by
  rw [readBody?_succ, h]
  rfl

theorem readBody?_of_ne {b : Body} {c : Char} {rest : List Char} (fuel : Nat) (h : skipBlanks b.flags cs = c :: rest)
    (hc : c ≠ ')') :
    readBody? (fuel + 1) b cs = (readPiece? fuel b c rest).bind fun (b, rest) => readBody? fuel b rest := by
  rw [readBody?_succ, h]
  dsimp only
  rw [if_neg hc]

theorem leaves_readPiece? {fuel : Nat} (hgroup : ∀ b, Leaves (readGroup? fuel b)) (b : Body) (c : Char) :
    Leaves (readPiece? fuel b c) := by
  intro cs b' rest h
  have hrepeat {o : Option Body} {more : List Char}
      (h : (o.map fun b => (b, afterLazy more)) = some (b', rest)) : rest <:+ more := by
    obtain ⟨b', -, ⟨⟩⟩ := Option.map_eq_some_iff.1 h
    exact suffix_afterLazy more
  unfold readPiece? at h
  split at h
  · exact (hgroup b _ _ _ h).trans (suffix_skipBlanks b.flags cs)
  · cases h
    exact List.suffix_rfl
  · exact (leaves_readSet? b.flags _).map (fun s => b.push (.set s)) _ _ _ h
  · exact hrepeat h
  · exact hrepeat h
  · exact hrepeat h
  · obtain ⟨⟨⟨least, most⟩, more⟩, hbounds, h⟩ := Option.bind_eq_some_iff.1 h
    exact ((hrepeat h).trans (suffix_skipBlanks b.flags more)).trans (leaves_boundsRead? b.flags _ _ _ hbounds)
  · obtain ⟨⟨p, more⟩, hprimitive, ⟨⟩⟩ := Option.map_eq_some_iff.1 h
    exact suffix_of_suffix_cons (consumes_readPrimitive? b.flags _ _ _ hprimitive)

/-- **Items agree**, unless a brace is left that dangles. -/
theorem agrees_readPiece? {fuel fuel' : Nat} (b : Body) (c : Char) (rest : List Char)
    (hgroup : Agrees (closing n) Always (readGroup? fuel b (skipBlanks b.flags rest))
      (readGroup? fuel' b (skipBlanks b.flags (rest ++ closing n)))) :
    Agrees (closing n) (fun b rest => ¬Dangling b.flags rest) (readPiece? fuel b c rest)
      (readPiece? fuel' b c (rest ++ closing n)) := by
  have htrails := trails_append (closing n) rest
  unfold readPiece?
  split
  · exact hgroup.weaken fun _ _ _ => trivial
  · exact .some (closing_ne_nil n) htrails
  · exact (agrees_readSet? b.flags htrails le_rfl le_rfl).map (fun s => b.push (.set s)) fun _ _ _ => trivial
  · exact .of_option (closing_ne_nil n) _ (trails_afterLazy htrails)
  · exact .of_option (closing_ne_nil n) _ (trails_afterLazy htrails)
  · exact .of_option (closing_ne_nil n) _ (trails_afterLazy htrails)
  · refine (agrees_boundsRead? b.flags htrails).bind (fun bounds cs b' more h => ?_) (fun _ _ _ _ _ _ => trivial)
      fun bounds more more' _ _ htrails =>
        .of_option (closing_ne_nil n) _ (trails_afterLazy (trails_skipBlanks b.flags htrails))
    obtain ⟨b', -, ⟨⟩⟩ := Option.map_eq_some_iff.1 h
    exact (suffix_afterLazy _).trans (suffix_skipBlanks b.flags cs)
  · exact (agrees_readPrimitive? b.flags c rest).map b.push fun _ _ hseen => hseen

/-- **After the flags of a group head**: the end of a change of flags, or the inside of a group. -/
def afterFlags? (fuel : Nat) (b : Body) (head : Flags × List Char) (rest : List Char) : Option (Body × List Char) :=
  match rest with
  | ')' :: rest =>
    if head.2.isEmpty then none else some ({ b with flags := head.1, items := none :: b.items }, rest)
  | _ => readInner? fuel b head.1 (rest.drop 1)

theorem afterFlags?_of_ne (fuel : Nat) (b : Body) (head : Flags × List Char) (h : ∀ rest, cs ≠ ')' :: rest) :
    afterFlags? fuel b head cs = readInner? fuel b head.1 (cs.drop 1) := by
  unfold afterFlags?
  split
  · exact absurd rfl (h _)
  · rfl

theorem readGroup?_eq (fuel : Nat) (b : Body) (cs : List Char) :
    readGroup? (fuel + 1) b cs =
      if looksAround cs then none
      else
        match nameMark? cs, flagMark? cs with
        | some rest, _ =>
          (readGroupName? b.names rest).bind fun (name, rest) =>
            readInner? fuel { b with names := name :: b.names } b.flags rest
        | none, some rest =>
          (flagsRead? b.flags true [] rest).bind fun (head, rest) => afterFlags? fuel b head rest
        | none, none => readInner? fuel b b.flags cs := by
  unfold readGroup?
  split_ifs
  · rfl
  · split
    · rfl
    · rfl
    · rename_i rest hlong hshort _
      have hname : nameMark? ('?' :: rest) = none := by
        unfold nameMark?
        split <;> simp_all
      have hflag : flagMark? ('?' :: rest) = some rest := rfl
      rw [hname, hflag]
      unfold flagsRead?
      dsimp only
      rcases b.flags.read? true [] rest with _ | ⟨flags, seen, rest⟩
      · rfl
      · simp only [Option.bind_some, bind, Option.map_some]
        split
        · rw [afterFlags?]
          split_ifs <;> rfl
        · rename_i hne
          exact (afterFlags?_of_ne fuel b (flags, seen) hne).symm
    · rename_i hlong hshort hmark _
      have hname : nameMark? cs = none := by
        unfold nameMark?
        split <;> simp_all
      have hflag : flagMark? cs = none := by
        unfold flagMark?
        split <;> simp_all
      rw [hname, hflag]

/-- **Group with its inside**, if its closing bracket follows. -/
def closeGroup? (b inner : Body) : List Char → Option (Body × List Char)
  | ')' :: rest => some ({ b with names := inner.names }.push (.group inner.pattern), rest)
  | _ => none

theorem readInner?_eq (fuel : Nat) (b : Body) (flags : Flags) (cs : List Char) :
    readInner? (fuel + 1) b flags cs =
      (readBody? fuel ⟨flags, b.names, [], []⟩ cs).bind fun (inner, rest) => closeGroup? b inner rest := by
  rw [readInner?]
  rfl

theorem suffix_of_nameMark? {rest : List Char} (h : nameMark? cs = some rest) : rest <:+ cs := by
  unfold nameMark? at h
  split at h
  · cases h
    exact ((List.suffix_cons _ _).trans (List.suffix_cons _ _)).trans (List.suffix_cons _ _)
  · cases h
    exact (List.suffix_cons _ _).trans (List.suffix_cons _ _)
  · cases h

theorem suffix_of_flagMark? {rest : List Char} (h : flagMark? cs = some rest) : rest <:+ cs := by
  unfold flagMark? at h
  split at h
  · cases h
    exact List.suffix_cons _ _
  · cases h

theorem leaves_closeGroup? (b inner : Body) : Leaves (closeGroup? b inner) := by
  intro cs b' rest h
  unfold closeGroup? at h
  split at h
  · cases h
    exact List.suffix_cons _ _
  · cases h

theorem leaves_afterFlags? {fuel : Nat} (hinner : ∀ b flags, Leaves (readInner? fuel b flags)) (b : Body)
    (head : Flags × List Char) : Leaves (afterFlags? fuel b head) := by
  intro cs b' rest h
  unfold afterFlags? at h
  split at h
  · split_ifs at h
    cases h
    exact List.suffix_cons _ _
  · exact (hinner _ _ _ _ _ h).trans (List.drop_suffix 1 cs)

/-! ### What bodies leave -/

theorem leaves_readBody?_readGroup?_readInner? (fuel : Nat) :
    (∀ b, Leaves (readBody? fuel b)) ∧ (∀ b, Leaves (readGroup? fuel b)) ∧
      ∀ b flags, Leaves (readInner? fuel b flags) := by
  induction fuel with
  | zero => exact ⟨fun _ => nofun, fun _ => nofun, fun _ _ => nofun⟩
  | succ fuel ih =>
    obtain ⟨hbody, hgroup, hinner⟩ := ih
    refine ⟨fun b cs b' rest h => ?_, fun b cs b' rest h => ?_, fun b flags cs b' rest h => ?_⟩
    · have hskip := suffix_skipBlanks b.flags cs
      cases hds : skipBlanks b.flags cs with
      | nil =>
        rw [readBody?_of_nil fuel hds] at h
        cases h
        exact List.nil_suffix
      | cons c more =>
        rw [hds] at hskip
        by_cases hc : c = ')'
        · subst hc
          rw [readBody?_of_close fuel hds] at h
          cases h
          exact hskip
        · rw [readBody?_of_ne fuel hds hc] at h
          obtain ⟨⟨b'', more'⟩, hpiece, h⟩ := Option.bind_eq_some_iff.1 h
          exact (((hbody _ _ _ _ h).trans (leaves_readPiece? hgroup b c _ _ _ hpiece)).trans
            (List.suffix_cons c more)).trans hskip
    · rw [readGroup?_eq] at h
      split_ifs at h
      split at h
      · rename_i hmark
        obtain ⟨⟨name, more⟩, hname, h⟩ := Option.bind_eq_some_iff.1 h
        exact ((hinner _ _ _ _ _ h).trans (leaves_readGroupName? _ _ _ _ hname)).trans (suffix_of_nameMark? hmark)
      · rename_i hmark
        obtain ⟨⟨head, more⟩, hflags, h⟩ := Option.bind_eq_some_iff.1 h
        exact ((leaves_afterFlags? hinner b head _ _ _ h).trans (leaves_flagsRead? _ _ _ _ _ _ hflags)).trans
          (suffix_of_flagMark? hmark)
      · exact hinner _ _ _ _ _ h
    · rw [readInner?_eq] at h
      obtain ⟨⟨inner, more⟩, hbody', h⟩ := Option.bind_eq_some_iff.1 h
      exact (leaves_closeGroup? b inner _ _ _ h).trans (hbody _ _ _ _ hbody')

theorem leaves_readBody? (fuel : Nat) (b : Body) : Leaves (readBody? fuel b) :=
  (leaves_readBody?_readGroup?_readInner? fuel).1 b

theorem leaves_readGroup? (fuel : Nat) (b : Body) : Leaves (readGroup? fuel b) :=
  (leaves_readBody?_readGroup?_readInner? fuel).2.1 b

theorem leaves_readInner? (fuel : Nat) (b : Body) (flags : Flags) : Leaves (readInner? fuel b flags) :=
  (leaves_readBody?_readGroup?_readInner? fuel).2.2 b flags

/-! ### Agreement -/

/-- A body does not go on with a brace that dangles. -/
theorem readBody?_dangling {b : Body} (fuel : Nat) (h : Dangling b.flags cs) :
    readBody? fuel b (cs ++ closing n) = none := by
  obtain ⟨rest, rfl, hskip⟩ := h
  cases fuel with
  | zero => rfl
  | succ fuel =>
    have hbrace : skipBlanks b.flags ('\x7b' :: (rest ++ closing n)) = '\x7b' :: (rest ++ closing n) := by
      have hblank : Text.isBlank '\x7b' = false := by decide
      rw [skipBlanks_cons]
      simp [hblank]
    rw [List.cons_append, readBody?_of_ne fuel hbrace (by decide), Option.bind_eq_none_iff]
    intro found hfound
    have hpiece : (boundsRead? b.flags (rest ++ closing n)).bind (fun ((least, most), rest) =>
        (b.repeatLast? least most).map fun repeated => (repeated, afterLazy (skipBlanks b.flags rest))) = some found :=
      hfound
    rw [boundsRead?_append_closing b.flags hskip] at hpiece
    cases hpiece

theorem agrees_closeGroup? (b inner : Body) (h : Trails (closing n) cs cs') :
    Agrees (closing n) Always (closeGroup? b inner cs) (closeGroup? b inner cs') := by
  cases h with
  | nothing => exact .none
  | other =>
    exact .of_none_of_forall fun b' rest heq _ =>
      replicate_ne_append_closing n rest (Prod.mk.inj (Option.some.inj heq)).2
  | cons c rest =>
    by_cases hc : c = ')'
    · subst hc
      exact .some (closing_ne_nil n) (trails_append _ rest)
    · have hne (rest : List Char) : closeGroup? b inner (c :: rest) = none := by
        unfold closeGroup?
        split <;> simp_all
      rw [hne, hne]
      exact .none

theorem flagsRead?_ne_nil {flags : Flags} {value : Bool} {seen : List Char} {found : Flags × List Char}
    (h : flagsRead? flags value seen cs = some (found, [])) : False := by
  induction cs generalizing flags value seen with
  | nil => cases h
  | cons c more ih =>
    rw [flagsRead?_cons] at h
    split_ifs at h
    · cases h
    · exact ih h
    · obtain ⟨flags', -, h⟩ := Option.bind_eq_some_iff.1 h
      exact ih h

theorem afterFlags?_closing (fuel : Nat) (b : Body) (head : Flags × List Char) (rest : List Char) {b' : Body} :
    afterFlags? fuel b head (closing n) ≠ some (b', rest ++ closing n) := by
  intro heq
  simp only [afterFlags?, closing] at heq
  split_ifs at heq
  exact replicate_ne_append_closing n rest (Prod.mk.inj (Option.some.inj heq)).2

theorem agrees_afterFlags? {fuel fuel' : Nat} (b : Body) (head : Flags × List Char) (c : Char) (rest : List Char)
    (hinner : Agrees (closing n) Always (readInner? fuel b head.1 rest)
      (readInner? fuel' b head.1 (rest ++ closing n))) :
    Agrees (closing n) Always (afterFlags? fuel b head (c :: rest))
      (afterFlags? fuel' b head (c :: (rest ++ closing n))) := by
  by_cases hc : c = ')'
  · subst hc
    simp only [afterFlags?]
    split_ifs
    · exact .none
    · exact .some (closing_ne_nil n) (trails_append _ rest)
  · rw [afterFlags?_of_ne fuel b head (cons_ne_cons_of_ne hc _),
      afterFlags?_of_ne fuel' b head (cons_ne_cons_of_ne hc _)]
    exact hinner

/-- **Bodies agree** at two fuels, if these are enough. -/
def BodiesAgree (n fuel fuel' : Nat) : Prop :=
  ∀ {b cs cs'}, Trails (closing n) cs cs' → 4 * cs.length + 1 ≤ fuel → 4 * cs'.length + 1 ≤ fuel' →
    Agrees (closing n) Always (readBody? fuel b cs) (readBody? fuel' b cs')

/-- **Groups agree** at two fuels, if these are enough. -/
def GroupsAgree (n fuel fuel' : Nat) : Prop :=
  ∀ {b cs cs'}, Trails (closing n) cs cs' → 4 * cs.length + 3 ≤ fuel → 4 * cs'.length + 3 ≤ fuel' →
    Agrees (closing n) Always (readGroup? fuel b cs) (readGroup? fuel' b cs')

/-- **Insides of groups agree** at two fuels, if these are enough. -/
def InsidesAgree (n fuel fuel' : Nat) : Prop :=
  ∀ {b flags cs cs'}, Trails (closing n) cs cs' → 4 * cs.length + 2 ≤ fuel → 4 * cs'.length + 2 ≤ fuel' →
    Agrees (closing n) Always (readInner? fuel b flags cs) (readInner? fuel' b flags cs')

variable {fuel fuel' : Nat}

theorem bodiesAgree_succ (hbody : BodiesAgree n fuel fuel') (hgroup : GroupsAgree n fuel fuel') :
    BodiesAgree n (fuel + 1) (fuel' + 1) := by
  intro b cs cs' h hfuel hfuel'
  have hskip := trails_skipBlanks b.flags h
  have hlength := (suffix_skipBlanks b.flags cs).length_le
  have hlength' := (suffix_skipBlanks b.flags cs').length_le
  generalize hds : skipBlanks b.flags cs = ds at hskip hlength
  generalize hds' : skipBlanks b.flags cs' = ds' at hskip hlength'
  cases hskip with
  | nothing =>
    rw [readBody?_of_nil fuel hds, readBody?_of_nil fuel' hds']
    exact .some (closing_ne_nil n) .nothing
  | other =>
    rw [readBody?_of_nil fuel hds, readBody?_of_close fuel' hds']
    exact .some (closing_ne_nil n) .other
  | cons c rest =>
    by_cases hc : c = ')'
    · subst hc
      rw [readBody?_of_close fuel hds, readBody?_of_close fuel' hds']
      exact .some (closing_ne_nil n) (.cons _ rest)
    rw [List.length_cons] at hlength hlength'
    have hrest := (suffix_skipBlanks b.flags rest).length_le
    have hrest' := (suffix_skipBlanks b.flags (rest ++ closing n)).length_le
    have hpiece := agrees_readPiece? b c rest
      (hgroup (trails_skipBlanks b.flags (trails_append _ rest)) (by omega) (by omega))
    rw [readBody?_of_ne fuel hds hc, readBody?_of_ne fuel' hds' hc]
    refine hpiece.bind (fun b => leaves_readBody? fuel' b) ?_ fun b' more more' hread hread' htrails => ?_
    · -- a brace that dangles is left to the body, which can only take it for a repetition
      intro b' more b'' left hread _ hdangling
      cases (readBody?_dangling fuel' hdangling).symm.trans hread
    · have hmore := (leaves_readPiece? (leaves_readGroup? fuel) b c _ _ _ hread).length_le
      have hmore' := (leaves_readPiece? (leaves_readGroup? fuel') b c _ _ _ hread').length_le
      exact hbody htrails (by omega) (by omega)

theorem groupsAgree_succ (hinner : InsidesAgree n fuel fuel') : GroupsAgree n (fuel + 1) (fuel' + 1) := by
  intro b cs cs' h hfuel hfuel'
  rw [readGroup?_eq, readGroup?_eq]
  rcases h.cases with ⟨rfl, rfl⟩ | rfl
  · exact hinner .nothing (by omega) (by omega)
  rw [looksAround_append, nameMark?_append, flagMark?_append]
  rw [List.length_append] at hfuel'
  split_ifs
  · exact .none
  cases hname : nameMark? cs with
  | some rest =>
    have hrest := (suffix_of_nameMark? hname).length_le
    refine (agrees_readGroupName? b.names rest).bind (fun name => leaves_readInner? fuel' _ _)
      (fun _ _ _ _ _ _ => trivial) fun name more more' hread hread' htrails => ?_
    have hmore := (leaves_readGroupName? _ _ _ _ hread).length_le
    have hmore' := (leaves_readGroupName? _ _ _ _ hread').length_le
    rw [List.length_append] at hmore'
    exact hinner htrails (by omega) (by omega)
  | none =>
    cases hflag : flagMark? cs with
    | none => exact hinner h (by omega) (by rw [List.length_append]; omega)
    | some rest =>
      have hrest := (suffix_of_flagMark? hflag).length_le
      refine (agrees_flagsRead? b.flags true [] rest).bind
        (fun head => leaves_afterFlags? (leaves_readInner? fuel') b head) ?_
        fun head more more' hread hread' htrails => ?_
      · -- flags at the very end take the closing bracket for theirs, and less than the closing text is left
        rintro head _ b' left hread - rfl
        exact afterFlags?_closing fuel' b head left hread
      · have hmore := (leaves_flagsRead? _ _ _ _ _ _ hread).length_le
        have hmore' := (leaves_flagsRead? _ _ _ _ _ _ hread').length_le
        rw [List.length_append] at hmore'
        cases htrails with
        | nothing => exact (flagsRead?_ne_nil hread).elim
        | other => exact (flagsRead?_ne_nil hread).elim
        | cons c more =>
          rw [List.length_cons] at hmore hmore'
          exact agrees_afterFlags? b head c more (hinner (trails_append _ more) (by omega) (by omega))

theorem insidesAgree_succ (hbody : BodiesAgree n fuel fuel') : InsidesAgree n (fuel + 1) (fuel' + 1) := by
  intro b flags cs cs' h hfuel hfuel'
  rw [readInner?_eq, readInner?_eq]
  exact (hbody h (by omega) (by omega)).bind (fun inner => leaves_closeGroup? b inner)
    (fun _ _ _ _ _ _ => trivial) fun inner rest rest' _ _ htrails => agrees_closeGroup? b inner htrails

theorem bodiesAgree_groupsAgree_insidesAgree (n fuel fuel' : Nat) :
    BodiesAgree n fuel fuel' ∧ GroupsAgree n fuel fuel' ∧ InsidesAgree n fuel fuel' := by
  induction fuel generalizing fuel' with
  | zero => exact ⟨fun _ _ => by omega, fun _ _ => by omega, fun _ _ => by omega⟩
  | succ fuel ih =>
    cases fuel' with
    | zero => exact ⟨fun _ _ _ => by omega, fun _ _ _ => by omega, fun _ _ _ => by omega⟩
    | succ fuel' =>
      obtain ⟨hbody, hgroup, hinner⟩ := ih fuel'
      exact ⟨bodiesAgree_succ hbody hgroup, groupsAgree_succ hinner, insidesAgree_succ hbody⟩

/-- **Bodies agree.** -/
theorem agrees_readBody? (b : Body) (h : Trails (closing n) cs cs') (hfuel : 4 * cs.length + 1 ≤ fuel)
    (hfuel' : 4 * cs'.length + 1 ≤ fuel') :
    Agrees (closing n) Always (readBody? fuel b cs) (readBody? fuel' b cs') :=
  (bodiesAgree_groupsAgree_insidesAgree n fuel fuel').1 h hfuel hfuel'

/-! ### Where bodies end -/

theorem readBody?_stops (fuel : Nat) (b : Body) (cs : List Char) {b' : Body} {rest : List Char}
    (h : readBody? fuel b cs = some (b', rest)) : rest = [] ∨ ∃ more, rest = ')' :: more := by
  induction fuel generalizing b cs with
  | zero => cases h
  | succ fuel ih =>
    cases hskip : skipBlanks b.flags cs with
    | nil =>
      rw [readBody?_of_nil fuel hskip] at h
      cases h
      exact .inl rfl
    | cons c more =>
      by_cases hc : c = ')'
      · subst hc
        rw [readBody?_of_close fuel hskip] at h
        cases h
        exact .inr ⟨more, rfl⟩
      · rw [readBody?_of_ne fuel hskip hc] at h
        obtain ⟨⟨b'', more'⟩, -, h⟩ := Option.bind_eq_some_iff.1 h
        exact ih _ _ h

/-! ### More fuel -/

theorem readPiece?_succ {fuel : Nat}
    (hgroup : ∀ b cs x, readGroup? fuel b cs = some x → readGroup? (fuel + 1) b cs = some x)
    {b : Body} {c : Char} {x : Body × List Char} (h : readPiece? fuel b c cs = some x) :
    readPiece? (fuel + 1) b c cs = some x := by
  by_cases hc : c = '('
  · subst hc
    exact hgroup _ _ _ h
  · rw [← h]
    unfold readPiece?
    split
    · exact absurd rfl hc
    all_goals rfl

theorem afterFlags?_succ {fuel : Nat}
    (hinner : ∀ b flags cs x, readInner? fuel b flags cs = some x → readInner? (fuel + 1) b flags cs = some x)
    {b : Body} {head : Flags × List Char} {x : Body × List Char} (h : afterFlags? fuel b head cs = some x) :
    afterFlags? (fuel + 1) b head cs = some x := by
  unfold afterFlags? at h ⊢
  split at h
  · exact h
  · exact hinner _ _ _ _ h

theorem readBody?_readGroup?_readInner?_succ (fuel : Nat) :
    (∀ b cs x, readBody? fuel b cs = some x → readBody? (fuel + 1) b cs = some x) ∧
    (∀ b cs x, readGroup? fuel b cs = some x → readGroup? (fuel + 1) b cs = some x) ∧
    ∀ b flags cs x, readInner? fuel b flags cs = some x → readInner? (fuel + 1) b flags cs = some x := by
  induction fuel with
  | zero =>
    refine ⟨fun b cs x h => ?_, fun b cs x h => ?_, fun b flags cs x h => ?_⟩
    all_goals cases h
  | succ fuel ih =>
    obtain ⟨hbody, hgroup, hinner⟩ := ih
    refine ⟨fun b cs x h => ?_, fun b cs x h => ?_, fun b flags cs x h => ?_⟩
    · cases hskip : skipBlanks b.flags cs with
      | nil =>
        rw [readBody?_of_nil _ hskip] at h ⊢
        exact h
      | cons c more =>
        by_cases hc : c = ')'
        · subst hc
          rw [readBody?_of_close _ hskip] at h ⊢
          exact h
        · rw [readBody?_of_ne _ hskip hc] at h ⊢
          obtain ⟨found, hpiece, h⟩ := Option.bind_eq_some_iff.1 h
          rw [readPiece?_succ hgroup hpiece]
          exact hbody _ _ _ h
    · rw [readGroup?_eq] at h ⊢
      split_ifs at h ⊢
      cases hname : nameMark? cs with
      | some rest =>
        rw [hname] at h
        obtain ⟨found, hread, h⟩ := Option.bind_eq_some_iff.1 h
        exact Option.bind_eq_some_iff.2 ⟨found, hread, hinner _ _ _ _ h⟩
      | none =>
        rw [hname] at h
        cases hflag : flagMark? cs with
        | some rest =>
          rw [hflag] at h
          obtain ⟨found, hread, h⟩ := Option.bind_eq_some_iff.1 h
          exact Option.bind_eq_some_iff.2 ⟨found, hread, afterFlags?_succ hinner h⟩
        | none =>
          rw [hflag] at h
          exact hinner _ _ _ _ h
    · rw [readInner?_eq] at h ⊢
      obtain ⟨found, hread, h⟩ := Option.bind_eq_some_iff.1 h
      exact Option.bind_eq_some_iff.2 ⟨found, hbody _ _ _ hread, h⟩

theorem readBody?_of_le {fuel fuel' : Nat} (hle : fuel ≤ fuel') {b : Body} {x : Body × List Char}
    (h : readBody? fuel b cs = some x) : readBody? fuel' b cs = some x := by
  induction hle with
  | refl => exact h
  | step _ ih => exact (readBody?_readGroup?_readInner?_succ _).1 _ _ _ ih

end FormWiring.Regex
