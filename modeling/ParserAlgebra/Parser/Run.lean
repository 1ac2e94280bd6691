import ParserAlgebra.Parser.Event
/-!
# Running parsers

`Parser.eval` is the meaning of a parser, by recursion on the tree.  It is given the meaning of the
cells, so it does not itself recurse through definitions; the grammar ties that knot.

Two settings bear on a run.  With eager choice, both sides of a choice are run on the same input
before one is picked; without it, the second is run only if the first fails.  With debugging on, a
labelled parser leaves a record when it is tried and another when it fails.

* `chain_of_length_le`: the bound on the iterations of a repetition is never the reason to stop.
-/

namespace ParserAlgebra

/-- What can be set for a run. -/
structure Settings where
  debug : Bool := false
  eagerChoice : Bool := true
deriving DecidableEq, Repr

namespace Reply

/-- Goes on from the output and the rest of a success; a failure stays as it is. -/
def onSuccess (r : Reply) (next : Value → Text → Run Reply) : Run Reply :=
  match r with
  | success v rest => next v rest
  | discarded rest => next .nothing rest
  | failure expected rest => return failure expected rest

/-- Goes on from the label of a failure; a success stays as it is. -/
def onFailure (r : Reply) (next : Text → Run Reply) : Run Reply :=
  match r with
  | failure expected _ => next expected
  | r => return r

theorem onSuccess_of_accepted? {r : Reply} {v : Value} {rest : Text}
    (h : r.accepted? = some (v, rest)) (next : Value → Text → Run Reply) :
    r.onSuccess next = next v rest := by
  cases r <;> cases h <;> rfl

theorem onFailure_of_accepted? {r : Reply} {v : Value} {rest : Text}
    (h : r.accepted? = some (v, rest)) (next : Text → Run Reply) : r.onFailure next = pure r := by
  cases r <;> cases h <;> rfl

end Reply

/-- Runs a parser again and again, as long as it succeeds and consumes something: the outputs, and
the text at which it stopped.  The output of the attempt that stops it is dropped.  `bound` is at
least the length of the text. -/
def chain (step : Text → Run Reply) : (bound : Nat) → Text → Run (List Value × Text)
  | 0, input => do
    let _ ← step input
    return ([], input)
  | bound + 1, input => do
    match (← step input).accepted? with
    | some (v, rest) =>
      if rest.length < input.length then
        let (vs, last) ← chain step bound rest
        return (v :: vs, last)
      else return ([], input)
    | none => return ([], input)

/-- One more iteration is allowed for, but never made. -/
theorem chain_succ_of_length_le (step : Text → Run Reply) (bound : Nat) (input : Text)
    (h : input.length ≤ bound) : chain step (bound + 1) input = chain step bound input := by
  induction bound generalizing input with
  | zero =>
    simp only [chain]
    congr 1
    funext r
    split
    · rw [if_neg (by omega)]
    · rfl
  | succ bound ih =>
    rw [chain, chain]
    congr 1
    funext r
    split
    · split
      · rw [ih _ (by omega)]
      · rfl
    · rfl

/-- The bound on the iterations is never the reason to stop. -/
theorem chain_of_length_le (step : Text → Run Reply) {bound : Nat} {input : Text}
    (h : input.length ≤ bound) : chain step bound input = chain step input.length input := by
  obtain ⟨extra, rfl⟩ := Nat.exists_eq_add_of_le h
  induction extra with
  | zero => rfl
  | succ extra ih =>
    rw [← Nat.add_assoc, chain_succ_of_length_le step _ _ (by omega), ih (by omega)]

namespace Parser

/-- Leaves a record if debugging is on. -/
def record (settings : Settings) (r : Record) : Run Unit :=
  if settings.debug then Run.log r else return ()

/-- The run of a parser on an input, given the runs of the cells. -/
def eval (settings : Settings) (enter : Nat → Text → Run Reply) : Parser → Text → Run Reply
  | leaf l, input => do
    Run.emit (.entered (leaf l) input)
    Run.ofOutcome (l.run input)
  | map p f, input => do
    Run.emit (.entered (map p f) input)
    let r ← p.eval settings enter input
    Run.ofExcept (r.map f)
  | bind p f, input => do
    Run.emit (.entered (bind p f) input)
    let r ← p.eval settings enter input
    r.onSuccess fun v rest => (f v).eval settings enter rest
  | orElse p q, input => do
    Run.emit (.entered (orElse p q) input)
    let r ← p.eval settings enter input
    if r.isSuccess && !settings.eagerChoice then return r
    else return r.alternative (← q.eval settings enter input)
  | label text p, input => do
    Run.emit (.entered (label text p) input)
    record settings (.trying text)
    let r ← p.eval settings enter input
    r.onFailure fun expected => do
      record settings (.failed text expected (input.take 20))
      return .failure text input
  | ignore p, input => do
    Run.emit (.entered (ignore p) input)
    let r ← p.eval settings enter input
    return r.ignore
  | keepFirst p q, input => do
    Run.emit (.entered (keepFirst p q) input)
    let r ← p.eval settings enter input
    if r.isSuccess then
      let s ← q.eval settings enter r.rest
      return if s.isSuccess then r.withRest s.rest else s
    else return r
  | notFollowedBy p, input => do
    Run.emit (.entered (notFollowedBy p) input)
    let r ← p.eval settings enter input
    return if r.isSuccess then .failure notFollowedByLabel input else .discarded input
  | append p q concat, input => do
    Run.emit (.entered (append p q concat) input)
    let r ← p.eval settings enter input
    if r.isSuccess then
      let s ← q.eval settings enter r.rest
      Run.ofExcept (r.append concat s)
    else return r
  | many p, input => do
    Run.emit (.entered (many p) input)
    let (vs, rest) ← chain (p.eval settings enter) input.length input
    return .success (.list vs) rest
  | lookAhead p, input => do
    Run.emit (.entered (lookAhead p) input)
    let r ← p.eval settings enter input
    return if r.isSuccess then r.withRest input else r
  | probe tag p, input => do
    Run.emit (.entered (probe tag p) input)
    Run.emit (.probed tag input)
    p.eval settings enter input
  | cell id, input => do
    Run.emit (.entered (cell id) input)
    enter id input

end Parser


end ParserAlgebra
