import FormWiring.Proofs.PrintedPlans
import FormWiring.Proofs.QuotedText

/-!
# Lines of a plan

The text of a plan is meant to have a header and one line for each validator. The texts that a plan quotes are escaped,
so none of them breaks a line; the names are not. Hence the text has one more line for each line end in the unit name
and in the members that the validators are bound to, and it has the lines it is meant to have where there are none.

Main statement: `Form.lines_planText`.
-/

set_option autoImplicit false

namespace FormWiring

/-! ## Lines -/

namespace Text

/-- **Lines of characters**, without their ends. A line end at the end starts no further line. -/
def charLines : List Char → List (List Char)
  | [] => []
  | c :: cs =>
    if c = '\n' then [] :: charLines cs
    else
      match charLines cs with
      | [] => [[c]]
      | line :: lines => (c :: line) :: lines

/-- **Lines of a text.** -/
def lines (s : String) : List String :=
  (charLines s.toList).map String.ofList

/-- **Line ends in a text.** -/
def lineEnds (s : String) : Nat :=
  s.toList.count '\n'

/-- **Text of lines**, each with its end. -/
def ofLines (ls : List String) : List Char :=
  ls.flatMap fun line => line.toList ++ ['\n']

theorem charLines_append {line : List Char} (hline : '\n' ∉ line) (rest : List Char) :
    charLines (line ++ '\n' :: rest) = line :: charLines rest := by
  induction line with
  | nil => rfl
  | cons c line ih =>
    have hc : c ≠ '\n' := fun h => hline (h ▸ List.mem_cons_self)
    have hrest : '\n' ∉ line := fun h => hline (List.mem_cons_of_mem c h)
    rw [List.cons_append, charLines, if_neg hc, ih hrest]

theorem ofLines_cons (line : String) (ls : List String) :
    ofLines (line :: ls) = line.toList ++ '\n' :: ofLines ls := by
  simp [ofLines]

/-- Lines without a line end of their own are found again. -/
theorem charLines_ofLines {ls : List String} (h : ∀ line ∈ ls, lineEnds line = 0) :
    charLines (ofLines ls) = ls.map String.toList := by
  induction ls with
  | nil => rfl
  | cons line ls ih =>
    have hline : '\n' ∉ line.toList := List.count_eq_zero.1 (h line List.mem_cons_self)
    rw [ofLines_cons, charLines_append hline, ih fun l hl => h l (List.mem_cons_of_mem line hl), List.map_cons]

/-- A text has one line for each line end, up to the last of them. -/
theorem length_charLines_append (cs rest : List Char) :
    (charLines (cs ++ '\n' :: rest)).length = cs.count '\n' + 1 + (charLines rest).length := by
  induction cs with
  | nil => exact Nat.add_comm _ _
  | cons c cs ih =>
    rw [List.cons_append, charLines]
    by_cases hc : c = '\n'
    · rw [if_pos hc, List.length_cons, ih, hc, List.count_cons_self]
      omega
    · rw [if_neg hc, List.count_cons_of_ne hc, ← ih]
      rcases hlines : charLines (cs ++ '\n' :: rest) with - | ⟨line, lines⟩
      · rw [hlines, List.length_nil] at ih
        omega
      · rfl

theorem length_charLines_ofLines (ls : List String) :
    (charLines (ofLines ls)).length = ls.length + (ls.map lineEnds).sum := by
  induction ls with
  | nil => rfl
  | cons line ls ih =>
    rw [ofLines_cons, length_charLines_append, ih, List.length_cons, List.map_cons, List.sum_cons, lineEnds]
    omega

/-! ## Line ends -/

@[simp] theorem lineEnds_append (s t : String) : lineEnds (s ++ t) = lineEnds s + lineEnds t := by
  rw [lineEnds, String.toList_append, List.count_append]
  rfl

theorem lineEnds_intercalate {separator : String} (hseparator : lineEnds separator = 0) (ss : List String) :
    lineEnds (separator.intercalate ss) = (ss.map lineEnds).sum := by
  induction ss with
  | nil => rfl
  | cons s ss ih =>
    cases ss with
    | nil => simp
    | cons t ts =>
      have hcons : separator.intercalate (s :: t :: ts) = s ++ separator ++ separator.intercalate (t :: ts) :=
        String.intercalate_cons_cons
      rw [hcons, lineEnds_append, lineEnds_append, hseparator, ih]
      simp

theorem lineEnd_not_mem_toDigits (n : Nat) : '\n' ∉ Nat.toDigits 10 n := fun h =>
  absurd (List.all_eq_true.1 (all_isDigit_toDigits n) _ h) (by decide)

@[simp] theorem lineEnds_nat (n : Nat) : lineEnds (toString n) = 0 := by
  rw [lineEnds, toList_toString]
  exact List.count_eq_zero.2 (lineEnd_not_mem_toDigits n)

@[simp] theorem lineEnds_int (n : Int) : lineEnds (toString n) = 0 := by
  cases n with
  | ofNat n => exact lineEnds_nat n
  | negSucc n =>
    have hneg : toString (Int.negSucc n) = "-" ++ toString (n + 1) := rfl
    rw [hneg, lineEnds_append, lineEnds_nat]
    decide

theorem lineEnd_not_mem_unicodeEscape (c : Char) : '\n' ∉ unicodeEscape c := by
  have hdigits : '\n' ∉ hexDigits c.toNat := fun h =>
    absurd (List.all_eq_true.1 (all_isHexDigit_hexDigits c.toNat) _ h) (by decide)
  simp [unicodeEscape, hdigits]

/-- An escape stands on one line. -/
theorem lineEnd_not_mem_escapeChar (c : Char) : '\n' ∉ escapeChar c := by
  unfold escapeChar
  split_ifs with hnul htab hreturn hend hquote hseen
  · decide
  · decide
  · decide
  · decide
  · have hc : c = '"' ∨ c = '\\' := by simpa using hquote
    rcases hc with rfl | rfl <;> decide
  · exact lineEnd_not_mem_unicodeEscape c
  · rw [List.mem_singleton]
    rintro rfl
    exact hend rfl

@[simp] theorem lineEnds_quote (s : String) : lineEnds (quote s) = 0 := by
  rw [lineEnds, quote, String.toList_ofList, List.count_eq_zero]
  simp [lineEnd_not_mem_escapeChar]

end Text

/-! ## Lines of descriptions -/

open Text

@[simp] theorem MessageSource.lineEnds_describe (source : MessageSource) : lineEnds source.describe = 0 := by
  cases source with
  | resource id =>
    rw [describe, lineEnds_append, lineEnds_int]
    decide
  | literal text => exact lineEnds_quote text

@[simp] theorem Arg.lineEnds_describe (arg : Arg) : lineEnds arg.describe = 0 := by
  cases arg with
  | bool value => cases value <;> decide
  | int value => exact lineEnds_int value.toInt
  | text value => exact lineEnds_quote value
  | message source => exact source.lineEnds_describe

theorem lineEnds_args (args : List Arg) : lineEnds (", ".intercalate (args.map Arg.describe)) = 0 := by
  rw [lineEnds_intercalate (by decide)]
  exact List.sum_eq_zero (by simp)

/-- The line of a descriptor breaks at the line ends in its targets, and nowhere else. -/
theorem Descriptor.lineEnds_describe (number : Nat) (d : Descriptor) :
    lineEnds (d.describe number) = (d.targets.map lineEnds).sum := by
  have hkind : lineEnds d.kind.typeName = 0 := by cases d.kind <;> decide
  have hargs :
      lineEnds (if d.args.isEmpty then "" else " args: " ++ ", ".intercalate (d.args.map Arg.describe)) = 0 := by
    split
    · rfl
    · rw [lineEnds_append, lineEnds_args]
      decide
  obtain ⟨hindent, hdot, hopen, hclose⟩ : lineEnds "  " = 0 ∧ lineEnds ". " = 0 ∧ lineEnds " [" = 0 ∧
    lineEnds "] message: " = 0 := by decide
  simp only [describe, lineEnds_append, lineEnds_nat, hindent, hdot, hkind, hopen, hclose, hargs,
    MessageSource.lineEnds_describe, Nat.zero_add, Nat.add_zero]
  exact lineEnds_intercalate (by decide) d.targets

/-! ## Lines of plans -/

/-- **Line of a validator**: its number, its type and the members that it is bound to, then what else there is to say. -/
def Descriptor.IsLine (number : Nat) (d : Descriptor) (line : String) : Prop :=
  ∃ more, line =
    "  " ++ toString number ++ ". " ++ d.kind.typeName ++ " [" ++ ", ".intercalate d.targets ++ "] " ++ more

/-- **Numbered lines**: one for each validator, in order, numbered without gaps from the first number on. -/
inductive NumberedLines : Nat → List Descriptor → List String → Prop
  | nil (number : Nat) : NumberedLines number [] []
  | cons {number : Nat} {d : Descriptor} {ds : List Descriptor} {line : String} {ls : List String}
      (hline : d.IsLine number line) (rest : NumberedLines (number + 1) ds ls) :
      NumberedLines number (d :: ds) (line :: ls)

/-- **Lines that a plan should have**: a header, then a line for each validator, numbered from one, or the line that
there is none. -/
def Plan.HasLines (plan : Plan) (ls : List String) : Prop :=
  ∃ rest, ls = (plan.unit ++ " (" ++ plan.variant.name ++ ")") :: rest ∧
    if plan.descriptors = [] then rest = ["  no validators"] else NumberedLines 1 plan.descriptors rest

/-- **Lines of descriptors**, numbered from `number`. -/
def descriptorLines (number : Nat) : List Descriptor → List String
  | [] => []
  | d :: ds => d.describe number :: descriptorLines (number + 1) ds

/-- **Lines of a plan**, as the description makes them. A line with a line end in it is shown as two. -/
def Plan.lines (plan : Plan) : List String :=
  (plan.unit ++ " (" ++ plan.variant.name ++ ")") ::
    if plan.descriptors = [] then ["  no validators"] else descriptorLines 1 plan.descriptors

/-- **Names that a plan shows**: of its unit, and of the members that its validators are bound to. -/
def Plan.names (plan : Plan) : List String :=
  plan.unit :: plan.descriptors.flatMap Descriptor.targets

theorem Descriptor.isLine_describe (number : Nat) (d : Descriptor) : d.IsLine number (d.describe number) := by
  refine ⟨"message: " ++ d.message.describe ++
    if d.args.isEmpty then "" else " args: " ++ ", ".intercalate (d.args.map Arg.describe), ?_⟩
  have hclose : "] message: " = "] " ++ "message: " := by decide
  simp only [describe, hclose, String.append_assoc]

theorem numberedLines_descriptorLines (number : Nat) (ds : List Descriptor) :
    NumberedLines number ds (descriptorLines number ds) := by
  induction ds generalizing number with
  | nil => exact .nil number
  | cons d ds ih => exact .cons (d.isLine_describe number) (ih (number + 1))

theorem NumberedLines.length_eq {number : Nat} {ds : List Descriptor} {ls : List String}
    (h : NumberedLines number ds ls) : ls.length = ds.length := by
  induction h with
  | nil => rfl
  | cons hline rest ih => rw [List.length_cons, ih, List.length_cons]

theorem Plan.hasLines_lines (plan : Plan) : plan.HasLines plan.lines := by
  refine ⟨_, rfl, ?_⟩
  split_ifs
  · rfl
  · exact numberedLines_descriptorLines 1 plan.descriptors

theorem Plan.HasLines.length_eq {plan : Plan} {ls : List String} (h : plan.HasLines ls) :
    ls.length = 1 + max 1 plan.descriptors.length := by
  obtain ⟨rest, rfl, hrest⟩ := h
  rw [List.length_cons]
  split_ifs at hrest with hempty
  · rw [hrest, hempty]
    rfl
  · have hpos := List.length_pos_iff.2 hempty
    rw [hrest.length_eq]
    omega

theorem toList_describeFrom (number : Nat) (ds : List Descriptor) :
    (describeFrom number ds).toList ++ ['\n'] = '\n' :: ofLines (descriptorLines number ds) := by
  induction ds generalizing number with
  | nil => rfl
  | cons d ds ih => simp [describeFrom, descriptorLines, ofLines, ih, String.toList_append]

/-- The text of a plan is its lines, each with its end. -/
theorem Plan.toList_planText (plan : Plan) : (Command.planText plan false).toList = ofLines plan.lines := by
  have htext : Command.planText plan false = plan.describe ++ "\n" := rfl
  have hrest : (if plan.descriptors.isEmpty then "\n  no validators" else describeFrom 1 plan.descriptors).toList ++
      ['\n'] = '\n' :: ofLines (if plan.descriptors = [] then ["  no validators"]
        else descriptorLines 1 plan.descriptors) := by
    simp only [List.isEmpty_iff]
    split
    · decide
    · exact toList_describeFrom 1 plan.descriptors
  rw [htext, String.toList_append, describe, String.toList_append, List.append_assoc]
  exact (congrArg _ hrest).trans (by simp [lines, ofLines])

theorem sum_lineEnds_descriptorLines (number : Nat) (ds : List Descriptor) :
    ((descriptorLines number ds).map lineEnds).sum = ((ds.flatMap Descriptor.targets).map lineEnds).sum := by
  induction ds generalizing number with
  | nil => rfl
  | cons d ds ih => simp [descriptorLines, ih, Descriptor.lineEnds_describe]

/-- The lines of a plan break at the line ends in its names, and nowhere else. -/
theorem Plan.sum_lineEnds_lines (plan : Plan) :
    (plan.lines.map lineEnds).sum = (plan.names.map lineEnds).sum := by
  have hheader : lineEnds (plan.unit ++ " (" ++ plan.variant.name ++ ")") = lineEnds plan.unit := by
    have hvariant : lineEnds plan.variant.name = 0 := by cases plan.variant <;> decide
    obtain ⟨hopen, hclose⟩ : lineEnds " (" = 0 ∧ lineEnds ")" = 0 := by decide
    simp only [lineEnds_append, hvariant, hopen, hclose, Nat.add_zero]
  rw [lines, names, List.map_cons, List.sum_cons, List.map_cons, List.sum_cons, hheader]
  refine congrArg _ ?_
  split
  · next hempty =>
    rw [hempty]
    decide
  · exact sum_lineEnds_descriptorLines 1 plan.descriptors

/-- The text of a plan has a header and a line for each validator, or for none, and one more line for each line end in
a name. -/
theorem Plan.length_lines_planText (plan : Plan) :
    (Text.lines (Command.planText plan false)).length =
      1 + max 1 plan.descriptors.length + (plan.names.map lineEnds).sum := by
  rw [Text.lines, List.length_map, plan.toList_planText, length_charLines_ofLines, plan.sum_lineEnds_lines,
    plan.hasLines_lines.length_eq]

theorem sum_lineEnds_eq_zero_iff (ss : List String) : (ss.map lineEnds).sum = 0 ↔ ∀ s ∈ ss, '\n' ∉ s.toList := by
  rw [List.sum_eq_zero_iff_forall_eq_nat, List.forall_mem_map]
  exact forall₂_congr fun _ _ => List.count_eq_zero

theorem Plan.hasLines_planText_iff (plan : Plan) :
    plan.HasLines (Text.lines (Command.planText plan false)) ↔ ∀ name ∈ plan.names, '\n' ∉ name.toList := by
  rw [← sum_lineEnds_eq_zero_iff]
  constructor
  · intro h
    have hlength := plan.length_lines_planText
    rw [h.length_eq] at hlength
    omega
  · intro h
    have hlines : ∀ line ∈ plan.lines, lineEnds line = 0 := by
      rwa [← plan.sum_lineEnds_lines, List.sum_eq_zero_iff_forall_eq_nat, List.forall_mem_map] at h
    have htext : Text.lines (Command.planText plan false) = plan.lines := by
      rw [Text.lines, plan.toList_planText, charLines_ofLines hlines, List.map_map]
      simp
    exact htext ▸ plan.hasLines_lines

/-- **Lines of a plan.** The text of the plan of a form has the lines it should have, a header and one for each
validator, numbered from one, or one that says that there is none, exactly if no name that it shows holds a line end;
each line end in a name makes one line more. The command prints that text. -/
theorem Form.lines_planText (form : Form) (options : Options) (plan : Plan) (h : form.plan options = .ok plan) :
    (plan.HasLines (Text.lines (Command.planText plan false)) ↔
      ∀ name ∈ form.unitName options :: form.descriptors.flatMap Descriptor.targets, '\n' ∉ name.toList) ∧
    (Text.lines (Command.planText plan false)).length =
      1 + max 1 form.descriptors.length +
        ((form.unitName options :: form.descriptors.flatMap Descriptor.targets).map lineEnds).sum ∧
    ∀ (m : Machine) config path, m.Plans config path plan →
      ∃ m', Command.execute config (.plan path false) m = (.ok (), m') ∧
        m'.output = m.output ++ Command.planText plan false := by
  obtain ⟨-, rfl⟩ := Form.plan_eq_ok h
  refine ⟨Plan.hasLines_planText_iff _, Plan.length_lines_planText _, fun m config path hplan => ?_⟩
  obtain ⟨m', hrun, -, houtput⟩ := Command.execute_plan hplan
  exact ⟨m', hrun, houtput⟩

/-- A model with a line end in the name of its only field. -/
def brokenModel : String :=
  "name = 'Form'\non_success = 'ok'\n\n[[fields]]\nname = \"a\\nb\"\nrule = 'required'\n"

/-- The form of that model. -/
def brokenForm : Form :=
  { host := "Form", onSuccess := "ok", fields := [{ name := "a\nb", rule := .required }] }

/-- The plan of that form. -/
def brokenPlan : Plan :=
  ⟨"FormValidation", .direct, [⟨.required, ["a\nb"], .literal "", [.bool true]⟩]⟩

/-- The line of the only validator is printed as two. -/
theorem Form.lines_planText_broken :
    brokenForm.plan {} = .ok brokenPlan ∧
      ∃ m', Command.execute none (.plan "model.toml" false) (machineWithForm brokenModel) = (.ok (), m') ∧
        (Text.lines m'.output).length = 3 ∧ ¬brokenPlan.HasLines (Text.lines m'.output) := by
  have hmodel : (Toml.parse? brokenModel).bind (Form.ofDatum? .toml) = some brokenForm := by decide +kernel
  have hplan : brokenForm.plan {} = .ok brokenPlan := by decide
  obtain ⟨hlines, hlength, hprints⟩ := Form.lines_planText brokenForm {} brokenPlan hplan
  obtain ⟨m', hrun, houtput⟩ := hprints _ _ _ (plans_machineWithForm hmodel hplan)
  have hprinted : m'.output = Command.planText brokenPlan false := by
    rw [houtput, machineWithForm, String.empty_append]
  refine ⟨hplan, m', hrun, ?_, fun h => ?_⟩
  · rw [hprinted, hlength]
    decide
  · rw [hprinted, hlines] at h
    exact h "a\nb" (by decide) (by decide)

end FormWiring
