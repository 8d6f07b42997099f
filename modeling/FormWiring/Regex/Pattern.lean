import FormWiring.Regex.CharSet

/-!
# Patterns

A pattern is built from sets of characters and from conditions on a position by sequence, choice and repetition.
`Pattern.Matches` says which stretches of a text a pattern matches; `Pattern.ends` computes, from a start, the
positions at which a match may end.
-/

set_option autoImplicit false

namespace FormWiring.Regex

/-! ## Patterns -/

/-- **Conditions on a position** between characters. -/
inductive Anchor where
  | textStart
  | textEnd
  /-- Start of a line; a carriage return ends lines too when `returns` is set. -/
  | lineStart (returns : Bool)
  | lineEnd (returns : Bool)
  /-- Words are made of word characters, or of ASCII ones when `plain` is set. -/
  | wordBoundary (plain : Bool)
  | noWordBoundary (plain : Bool)
  | wordStart (plain : Bool)
  | wordEnd (plain : Bool)
  | wordStartHalf (plain : Bool)
  | wordEndHalf (plain : Bool)
  deriving DecidableEq, Repr

/-- **Patterns.** -/
inductive Pattern where
  | empty
  | set (s : CharSet)
  | anchor (a : Anchor)
  | sequence (parts : List Pattern)
  | choice (parts : List Pattern)
  | group (inner : Pattern)
  | repetition (least : Nat) (most : Option Nat) (inner : Pattern)
  deriving Repr, Inhabited

/-! ## Conditions -/

/-- **Word characters**, of ASCII or of all scripts. -/
def isWord (plain : Bool) (c : Char) : Bool :=
  if plain then c.isAlphanum || c == '_' else Text.isWordChar c

namespace Anchor

/-- **Condition at a position**, given the characters before and after it, if any. -/
def holds (before after : Option Char) : Anchor → Bool
  | textStart => before.isNone
  | textEnd => after.isNone
  | lineStart false => before.all (· == '\n')
  | lineStart true =>
    before.all fun c => c == '\n' || (c == '\r' && after.all (· != '\n'))
  | lineEnd false => after.all (· == '\n')
  | lineEnd true =>
    after.all fun c => c == '\r' || (c == '\n' && before.all (· != '\r'))
  | wordBoundary plain => before.any (isWord plain) != after.any (isWord plain)
  | noWordBoundary plain => before.any (isWord plain) == after.any (isWord plain)
  | wordStart plain => !before.any (isWord plain) && after.any (isWord plain)
  | wordEnd plain => before.any (isWord plain) && !after.any (isWord plain)
  | wordStartHalf plain => !before.any (isWord plain)
  | wordEndHalf plain => !after.any (isWord plain)

/-- **Condition at a position** of a text. -/
def holdsAt (text : Array Char) (i : Nat) (a : Anchor) : Bool :=
  a.holds (if i = 0 then none else text[i - 1]?) text[i]?

end Anchor

/-! ## Matches -/

namespace Pattern

/-- **A pattern matches** a stretch of a text, from one position to another. -/
inductive Matches (text : Array Char) : Pattern → Nat → Nat → Prop where
  | empty (i : Nat) : Matches text .empty i i
  | set (s : CharSet) (i : Nat) (c : Char) : text[i]? = some c → s.contains c = true →
      Matches text (.set s) i (i + 1)
  | anchor (a : Anchor) (i : Nat) : i ≤ text.size → a.holdsAt text i = true → Matches text (.anchor a) i i
  | sequenceNil (i : Nat) : Matches text (.sequence []) i i
  | sequenceCons (p : Pattern) (ps : List Pattern) (i j k : Nat) : Matches text p i j →
      Matches text (.sequence ps) j k → Matches text (.sequence (p :: ps)) i k
  | choice (p : Pattern) (ps : List Pattern) (i j : Nat) : p ∈ ps → Matches text p i j →
      Matches text (.choice ps) i j
  | group (p : Pattern) (i j : Nat) : Matches text p i j → Matches text (.group p) i j
  | repetitionDone (most : Option Nat) (p : Pattern) (i : Nat) : Matches text (.repetition 0 most p) i i
  | repetitionStep (least : Nat) (most : Option Nat) (p : Pattern) (i j k : Nat) : most ≠ some 0 →
      Matches text p i j → Matches text (.repetition (least - 1) (most.map (· - 1)) p) j k →
      Matches text (.repetition least most p) i k

/-! ## Computation -/

/-- **Positions with others added**, each once. -/
def addAll (found : List Nat) (more : List Nat) : List Nat :=
  more.foldl (fun found i => if found.contains i then found else i :: found) found

/-- **Positions reached from any of several** by one step. -/
def stepAll (step : Nat → List Nat) (starts : List Nat) : List Nat :=
  starts.foldl (fun found i => addAll found (step i)) []

/-- **Positions reached by a number of steps.** -/
def steps (step : Nat → List Nat) : Nat → List Nat → List Nat
  | 0, starts => starts
  | n + 1, starts => steps step n (stepAll step starts)

/-- **Positions reached by at most a number of steps**: those `found`, and those that can be reached from the
ones that are new. -/
def closure (step : Nat → List Nat) : Nat → List Nat → List Nat → List Nat
  | 0, found, _ => found
  | n + 1, found, fresh =>
    let next := (stepAll step fresh).filter fun i => !found.contains i
    if next.isEmpty then found else closure step n (found ++ next) next

mutual

/-- **Ends of matches** that start at a position. More repetitions than there are positions reach nothing new,
so their number is cut; a repetition that asks for more than it allows has none. -/
def ends (text : Array Char) : Pattern → Nat → List Nat
  | empty, i => [i]
  | set s, i => if text[i]?.any s.contains then [i + 1] else []
  | anchor a, i => if i ≤ text.size ∧ a.holdsAt text i then [i] else []
  | sequence parts, i => sequenceEnds text parts [i]
  | choice parts, i => choiceEnds text parts i
  | group inner, i => ends text inner i
  | repetition least most inner, i =>
    let step := fun i => ends text inner i
    let cap := text.size + 1
    let starts := steps step (min least cap) [i]
    let more :=
      match most with
      | none => cap
      | some n => min (n - least) cap
    if most.any (· < least) then [] else closure step more starts starts

/-- **Ends of matches of parts in sequence**, from any of several starts. -/
def sequenceEnds (text : Array Char) : List Pattern → List Nat → List Nat
  | [], starts => starts
  | p :: ps, starts => sequenceEnds text ps (stepAll (fun i => ends text p i) starts)

/-- **Ends of matches of one of several patterns.** -/
def choiceEnds (text : Array Char) : List Pattern → Nat → List Nat
  | [], _ => []
  | p :: ps, i => addAll (ends text p i) (choiceEnds text ps i)

end

/-- **A pattern matches somewhere** in a text. -/
def isFoundIn (p : Pattern) (text : List Char) : Bool :=
  let text := text.toArray
  (List.range (text.size + 1)).any fun i => !(p.ends text i).isEmpty

/-! ## Size -/

mutual

/-- **Nesting depth** of a pattern. -/
def depth : Pattern → Nat
  | empty | anchor _ | set _ => 0
  | sequence parts => depthOfAll parts + 1
  | choice parts => depthOfAll parts + 1
  | group inner => inner.depth + 1
  | repetition _ _ inner => inner.depth + 1

/-- **Deepest nesting** of several patterns. -/
def depthOfAll : List Pattern → Nat
  | [] => 0
  | p :: ps => max p.depth (depthOfAll ps)

end

mutual

/-- **Cost of a pattern** once its repetitions are written out. -/
def cost : Pattern → Nat
  | empty | anchor _ => 24
  | set s => 24 + 65 * (s.rangeCount - 1)
  | sequence parts => costOfAll parts
  | choice parts => 24 + costOfAll parts
  | group inner => 48 + inner.cost
  | repetition least most inner => (max 1 (most.getD (least + 1))) * inner.cost + 24

/-- **Cost of several patterns.** -/
def costOfAll : List Pattern → Nat
  | [] => 0
  | p :: ps => p.cost + costOfAll ps

end

end Pattern

end FormWiring.Regex
