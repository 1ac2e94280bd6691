import ParserAlgebra.Grammar
/-!
# Grammars in the making

A grammar is made call by call.  Each parser that is made gets a number, by which trees refer to it
(`Parser.cell`), and keeps two things: what it runs, and its status towards recursion.  A parser that
is made from a tree runs this tree from the start.  One that is declared as recursive has nothing to
run at first, and to run it is a fault, until it is tied to a target.  A target is again a number, so
it is looked up when it is run: it may be declared only, or be the tied parser itself.

Tying a parser looks at its status alone, and running it looks at what it runs alone.  The two are
written one after the other, and fit together because of what calls can have come before.
-/

namespace ParserAlgebra

/-- What is kept of a parser that was made. -/
structure Draft.Cell where
  /-- The tree that it runs.  Without one, its run stops with a fault. -/
  action : Option Parser
  /-- Its status towards recursion. -/
  status : Status

/-- A grammar in the making: the parsers made so far, by number. -/
structure Draft where
  cells : List Draft.Cell := []

namespace Draft

/-- Makes a parser from a tree: the draft with it, and its number. -/
def make (d : Draft) (p : Parser) : Draft × Nat :=
  ({ cells := d.cells ++ [{ action := some p, status := .nonRecursive }] }, d.cells.length)

/-- Makes a recursive parser, which has nothing to run yet: the draft with it, and its number. -/
def declare (d : Draft) : Draft × Nat :=
  ({ cells := d.cells ++ [{ action := none, status := .awaiting }] }, d.cells.length)

/-- The number of a parser: that of a reference is what it refers to, any other tree is made. -/
def refer (d : Draft) : Parser → Draft × Nat
  | .cell x => (d, x)
  | p => d.make p

/-- The status of the parser with this number. -/
def status (d : Draft) (x : Nat) : Status :=
  match d.cells[x]? with
  | some c => c.status
  | none => .nonRecursive

def setAction (d : Draft) (x : Nat) (p : Parser) : Draft :=
  { cells := d.cells.modify x fun c => { c with action := some p } }

def setStatus (d : Draft) (x : Nat) (s : Status) : Draft :=
  { cells := d.cells.modify x fun c => { c with status := s } }

/-- Ties a parser, which must be awaiting it, to the one that it runs from then on, and leaves a
record: the draft after the call, also after a refused one, and how the call ended. -/
def tie (d : Draft) (x target : Nat) : Draft × Run Unit :=
  match d.status x with
  | .nonRecursive => (d, .ofExcept (.error .notRecursive))
  | .tied => (d, .ofExcept (.error .alreadyDefined))
  | .awaiting => ((d.setAction x (.cell target)).setStatus x .tied, Run.log (.tied x))

/-- The draft as a grammar, which has all that a run needs. -/
def grammar (d : Draft) : Grammar := { cells := d.cells.map Cell.action }

/-- The run of a parser on an input. -/
def run (d : Draft) (settings : Settings) (limit : Nat) (p : Parser) (input : Text) : Run Reply :=
  d.grammar.run settings limit p input

end Draft

end ParserAlgebra
