import ParserAlgebra.Proofs.Draft.Protocol
/-!
# Drafts as grammars

For its runs, a draft is a grammar: what each parser runs is the definition of
its cell.  The calls that make the draft are seen there as calls that make the
grammar.

* `grammar_declare`: a declared parser is a declared cell.
* `grammar_make`: a parser made from a tree is a cell tied to it at once.
* `grammar_tieLogged`: a recursive parser is tied, or refused, as its cell is,
  with the same record.

A grammar does not tell a parser that was made from a tree from one that was
tied.  Where a draft refuses to tie a parser because it was made so, a grammar
refuses because its cell has a definition already.
-/

namespace ParserAlgebra.Draft

variable {d : Draft} {x target : Nat} {c : Cell} {calls : List Call}

/-- To declare a parser is to declare a cell. -/
theorem grammar_declare (d : Draft) :
    d.grammar.declare = (d.declare.1.grammar, .cell d.declare.2) := by
  simp [Grammar.declare, declare, grammar]

/-- To make a parser from a tree is to declare a cell and to tie it at once. -/
theorem grammar_make (d : Draft) (p : Parser) :
    d.grammar.declare.1.tie d.grammar.declare.2 p = .ok (d.make p).1.grammar := by
  simp [Grammar.declare, Grammar.tie, make, grammar]

/-- Tying a parser leaves the other cells as they are. -/
theorem grammar_cells_tie_of_ne (d : Draft) {id : Nat} (hne : id ≠ x)
    (target : Nat) :
    (d.tie x target).1.grammar.cells[id]? = d.grammar.cells[id]? := by
  rw [grammar_cells, grammar_cells, cells_tie]
  simp [Cell.after, hne]

/-- Tying a parser that is awaiting this gives its cell a definition. -/
theorem grammar_tie_of_awaiting (hx : d.cells[x]? = some c)
    (hc : c.status = .awaiting) (target : Nat) :
    (d.tie x target).1.grammar =
      { cells := d.grammar.cells.set x (some (.cell target)) } := by
  have hlt : x < d.grammar.cells.length := by
    rw [grammar, List.length_map]
    exact (List.getElem?_eq_some_iff.mp hx).1
  refine congrArg Grammar.mk (List.ext_getElem? fun z => ?_)
  by_cases hz : z = x
  · subst hz
    rw [List.getElem?_set_self hlt, List.getElem?_map, cells_tie, hx]
    simp [Cell.after, hc]
  · rw [List.getElem?_set_ne (Ne.symm hz)]
    exact grammar_cells_tie_of_ne d hz target

/-- To tie a recursive parser is to tie its cell, to the cell of the target. -/
theorem grammar_tieLogged (hx : (afterAll {} calls).status x ≠ .nonRecursive)
    (target : Nat) :
    (afterAll {} calls).grammar.tieLogged (.cell x) (.cell target) =
      ((afterAll {} calls).tie x target).2 >>= fun _ =>
        pure ((afterAll {} calls).tie x target).1.grammar := by
  cases hc : (afterAll {} calls).cells[x]? with
  | none =>
      rw [status, hc] at hx
      exact absurd rfl hx
  | some c =>
      have hstatus := status_of_cells hc
      have hcell := grammar_cells (afterAll {} calls) x
      rw [hc] at hcell
      cases situation_of_cells hc with
      | made h => exact absurd hstatus hx
      | awaiting h hlater =>
          have hset : ((afterAll {} calls).tie x target).1.grammar =
              { cells := (afterAll {} calls).grammar.cells.set x
                  (some (.cell target)) } :=
            grammar_tie_of_awaiting hc rfl target
          rw [hset]
          simp only [Grammar.tieLogged, Grammar.tie, hcell, tie, hstatus]
          rfl
      | tied h hbetween =>
          simp only [Grammar.tieLogged, Grammar.tie, hcell, tie, hstatus]
          rfl

end ParserAlgebra.Draft
