import ParserAlgebra.Parser.Run
/-!
# Grammars

A grammar is the table of its recursive parsers.  A cell is declared without a definition, can be
referred to from then on, and is tied to its definition once.  The table is only looked up when a
cell is run, so definitions may refer to cells that are not tied yet, to each other and to
themselves.

A run through cells may nest without end.  It is given a limit on the nesting and is `unfinished`
where it would go deeper; a run that ends within one limit has the same outcome for every larger
one.  `defaultLimit` suits inputs whose nesting is moderate.

* `tie_eq_ok_iff`: exactly the declared cells without a definition can be tied.
-/

namespace ParserAlgebra

/-- The recursive parsers of a grammar: for each declared cell its definition, once it is tied. -/
structure Grammar where
  cells : List (Option Parser) := []

namespace Grammar

/-- Declares a further cell: the grammar with it, and the parser that refers to it. -/
def declare (g : Grammar) : Grammar × Parser :=
  ({ cells := g.cells ++ [none] }, .cell g.cells.length)

/-- The state of a parser towards recursion. -/
def status (g : Grammar) : Parser → Status
  | .cell id =>
    match g.cells[id]? with
    | some (some _) => .tied
    | some none => .awaiting
    | none => .nonRecursive
  | _ => .nonRecursive

/-- Ties a parser, which must be a declared cell without a definition, to its definition. -/
def tie (g : Grammar) (p definition : Parser) : Except Fault Grammar :=
  match p with
  | .cell id =>
    match g.cells[id]? with
    | some none => .ok { cells := g.cells.set id (some definition) }
    | some (some _) => .error .alreadyDefined
    | none => .error .notRecursive
  | _ => .error .notRecursive

/-- Ties a cell and leaves a record of it. -/
def tieLogged (g : Grammar) (p definition : Parser) : Run Grammar := do
  let g ← Run.ofExcept (g.tie p definition)
  if let .cell id := p then Run.log (.tied id)
  return g

/-- Exactly the declared cells without a definition can be tied. -/
theorem tie_eq_ok_iff {g g' : Grammar} {p definition : Parser} :
    g.tie p definition = .ok g' ↔
      ∃ id, p = .cell id ∧ g.cells[id]? = some none ∧
        g' = { cells := g.cells.set id (some definition) } := by
  constructor
  · intro h
    unfold tie at h
    split at h
    · next id =>
      split at h
      · next hid => exact ⟨id, rfl, hid, (Except.ok.inj h).symm⟩
      · cases h
      · cases h
    · cases h
  · rintro ⟨id, rfl, hid, rfl⟩
    simp [tie, hid]

/-- The nesting of cells up to which a run is followed if no other limit is given. -/
def defaultLimit : Nat := 1000

/-- The run of a cell on an input, through at most `limit` nested cells. -/
def enter (g : Grammar) (settings : Settings) : (limit id : Nat) → Text → Run Reply
  | 0, _, _ => .ofOutcome (.error .unfinished)
  | limit + 1, id, input =>
    match g.cells[id]? with
    | some (some definition) => definition.eval settings (enter g settings limit) input
    | _ => .ofOutcome (.error (.fault .undefinedCell))

/-- The run of a parser on an input. -/
def run (g : Grammar) (settings : Settings) (limit : Nat) (p : Parser) (input : Text) : Run Reply :=
  p.eval settings (g.enter settings limit) input

/-- The run of a parser that answers a failure with its diagnosis in the input. -/
def demand (g : Grammar) (settings : Settings) (limit : Nat) (p : Parser) (input : Text) :
    Run (Except Diagnosis Reply) := do
  let r ← g.run settings limit p input
  if r.isSuccess then return .ok r
  else
    let d ← Run.ofExcept (r.diagnosis (some input))
    return .error d

/-- Runs a parser on what a success leaves; a failure stays as it is. -/
def continueWith (g : Grammar) (settings : Settings) (limit : Nat) (r : Reply) (p : Parser) :
    Run Reply :=
  if r.isSuccess then g.run settings limit p r.rest else return r

end Grammar

end ParserAlgebra
