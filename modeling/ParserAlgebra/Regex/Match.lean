import ParserAlgebra.Regex.Pattern
/-!
# Matching by backtracking

A pattern is matched at the beginning of a text.  `Pattern.run` takes a continuation, the match of
everything that follows, and tries the ways to match in order of preference: the first one after
which the continuation succeeds is the answer.  The way back is the return from a call, so the
groups remembered on a way that failed are forgotten with it.

A repetition ends after an iteration that consumed nothing, as another one would consume nothing
either.  The number of iterations beyond the least one is therefore bounded by what is left of the
text, and the bound handed to `upTo` is never the reason to stop.

* `upTo_zero_budget`: with no repetitions left to make, a repetition is its continuation.
-/

namespace ParserAlgebra.Regex

/-- A state of a match: the place in the text, and the groups remembered so far. -/
structure State where
  /-- The number of code points before the place. -/
  pos : Nat := 0
  /-- The code point just before the place. -/
  before : Option CodePoint := none
  rest : Text
  groups : List (Option Text)

namespace State

/-- Steps over the next code point if the set holds it. -/
def step? (set : CharSet) (s : State) : Option State :=
  match s.rest with
  | [] => none
  | c :: rest =>
    if set.contains c then some { s with pos := s.pos + 1, before := some c, rest } else none

/-- The state `s`, with what was consumed since `start` remembered as a group. -/
def remember (index : Nat) (start s : State) : State :=
  { s with groups := s.groups.set index (some (start.rest.take (s.pos - start.pos))) }

end State

/-- A matcher: from the match of what follows, a match at a state. -/
abbrev Matcher := (State → Option State) → State → Option State

namespace Matcher

/-- A fixed number of repetitions. -/
def exactly (m : Matcher) : Nat → Matcher
  | 0, k, s => k s
  | n + 1, k, s => m (exactly m n k) s

/-- Up to a number of repetitions, or any number, as long as each but the last consumes something.
`bound` exceeds the number of code points left. -/
def upTo (m : Matcher) (greedy : Bool) : (bound : Nat) → (most : Option Nat) → Matcher
  | 0, _, k, s => k s
  | _ + 1, some 0, k, s => k s
  | bound + 1, most, k, s =>
    let more : Unit → Option State := fun _ =>
      m (fun t => if s.pos < t.pos then upTo m greedy bound (most.map (· - 1)) k t else k t) s
    if greedy then (more ()).orElse fun _ => k s else (k s).orElse more

theorem upTo_zero_budget (m : Matcher) (greedy : Bool) (bound : Nat) (k : State → Option State)
    (s : State) : upTo m greedy bound (some 0) k s = k s := by
  cases bound <;> rfl

end Matcher

/-- The matcher of a pattern. -/
def Pattern.run : Pattern → Matcher
  | empty, k, s => k s
  | one set, k, s => (s.step? set).bind k
  | anchor a, k, s => if a.holds s.before s.rest then k s else none
  | seq p q, k, s => p.run (q.run k) s
  | alt p q, k, s => (p.run k s).orElse fun _ => q.run k s
  | group index p, k, s => p.run (fun t => k (s.remember index t)) s
  | times greedy least most p, k, s =>
    Matcher.exactly p.run least
      (fun t => Matcher.upTo p.run greedy (t.rest.length + 1) (most.map (· - least)) k t) s

end ParserAlgebra.Regex

namespace ParserAlgebra

/-- A regular expression that was read: its text, its tree and the number of its groups. -/
structure Regex where
  source : Text
  pattern : Regex.Pattern
  groupCount : Nat
deriving DecidableEq

/-- A match at the beginning of a text. -/
structure Regex.Match where
  whole : Text
  groups : List (Option Text)
  /-- What follows the match. -/
  rest : Text
deriving DecidableEq, Repr

/-- The preferred match at the beginning of a text. -/
def Regex.match? (r : Regex) (text : Text) : Option Regex.Match :=
  (r.pattern.run some { rest := text, groups := List.replicate r.groupCount none }).map fun s =>
    { whole := text.take s.pos, groups := s.groups, rest := s.rest }

end ParserAlgebra
