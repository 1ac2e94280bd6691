import ParserAlgebra.Grammar
import ParserAlgebra.Parser.Lexeme
import ParserAlgebra.Parser.Repetition
/-!
# The parts of a parser

A parser is a tree, and through its cells it has the trees of their definitions
as parts too.  This file says which leaves and which cells belong to a parser.
The parsers that a continuation of `bind` can yield count as parts, for every
output that it may be given.

* `Parser.EachLeaf`: all leaves of the tree have a property.
* `Parser.Refers`: a cell occurs in the tree.
* `Grammar.Reaches`: a cell occurs in the tree, or in the definition of a cell
  that is reached.
* `Grammar.EachLeaf`: all leaves of the tree, and of the definitions of all
  cells that are reached, have a property.

`Grammar.sums` is a small recursive grammar, at which the general statements
about grammars are tried out.
-/

namespace ParserAlgebra

namespace Parser

/-- Every leaf of the parser has the property. -/
def EachLeaf (P : Leaf → Prop) : Parser → Prop
  | leaf l => P l
  | map p _ => p.EachLeaf P
  | bind p f => p.EachLeaf P ∧ ∀ v, (f v).EachLeaf P
  | orElse p q => p.EachLeaf P ∧ q.EachLeaf P
  | label _ p => p.EachLeaf P
  | ignore p => p.EachLeaf P
  | keepFirst p q => p.EachLeaf P ∧ q.EachLeaf P
  | notFollowedBy p => p.EachLeaf P
  | append p q _ => p.EachLeaf P ∧ q.EachLeaf P
  | many p => p.EachLeaf P
  | lookAhead p => p.EachLeaf P
  | probe _ p => p.EachLeaf P
  | cell _ => True

/-- The cell occurs in the parser. -/
def Refers : Parser → Nat → Prop
  | leaf _, _ => False
  | map p _, id => p.Refers id
  | bind p f, id => p.Refers id ∨ ∃ v, (f v).Refers id
  | orElse p q, id => p.Refers id ∨ q.Refers id
  | label _ p, id => p.Refers id
  | ignore p, id => p.Refers id
  | keepFirst p q, id => p.Refers id ∨ q.Refers id
  | notFollowedBy p, id => p.Refers id
  | append p q _, id => p.Refers id ∨ q.Refers id
  | many p, id => p.Refers id
  | lookAhead p, id => p.Refers id
  | probe _ p, id => p.Refers id
  | cell id', id => id' = id

/-- A property of leaves may be replaced by one that it implies. -/
theorem EachLeaf.mono {P Q : Leaf → Prop} (hPQ : ∀ l, P l → Q l) {p : Parser}
    (h : p.EachLeaf P) : p.EachLeaf Q := by
  induction p with
  | leaf l => exact hPQ l h
  | map p f ih => exact ih h
  | bind p f ihp ihf => exact ⟨ihp h.1, fun v => ihf v (h.2 v)⟩
  | orElse p q ihp ihq => exact ⟨ihp h.1, ihq h.2⟩
  | label text p ih => exact ih h
  | ignore p ih => exact ih h
  | keepFirst p q ihp ihq => exact ⟨ihp h.1, ihq h.2⟩
  | notFollowedBy p ih => exact ih h
  | append p q concat ihp ihq => exact ⟨ihp h.1, ihq h.2⟩
  | many p ih => exact ih h
  | lookAhead p ih => exact ih h
  | probe tag p ih => exact ih h
  | cell id => trivial

end Parser

namespace Grammar

/-- The cell occurs in the parser, or in the definition of a cell that the
parser reaches. -/
inductive Reaches (g : Grammar) (p : Parser) : Nat → Prop
  | here {id : Nat} (h : p.Refers id) : Reaches g p id
  | through {id id' : Nat} {definition : Parser} (h : Reaches g p id)
      (hcell : g.cells[id]? = some (some definition))
      (hrefers : definition.Refers id') :
      Reaches g p id'

/-- Every leaf of the parser, and of the definition of every cell that it
reaches, has the property. -/
structure EachLeaf (g : Grammar) (P : Leaf → Prop) (p : Parser) : Prop where
  own : p.EachLeaf P
  reached : ∀ {id : Nat} {definition : Parser}, g.Reaches p id →
    g.cells[id]? = some (some definition) → definition.EachLeaf P

theorem EachLeaf.mono
    {g : Grammar} {P Q : Leaf → Prop}
    (hPQ : ∀ l, P l → Q l)
    {p : Parser}
    (h : g.EachLeaf P p) :
    g.EachLeaf Q p where
  own := h.own.mono hPQ
  reached hreach hcell := (h.reached hreach hcell).mono hPQ

/-- Sums, as cell 0, whose terms, as cell 1, are integers and sums in
parentheses. -/
def sums : Grammar where
  cells := [
    some (Parser.sepBy1 (.char '+') (.cell 1)),
    some ((Parser.between (.char '(') (.char ')') (.cell 0)).orElse
      (.integer none))]

theorem eachLeaf_sums {P : Leaf → Prop} (hone : ∀ p label, P (.satisfy p label))
    (hinteger : P (.integer none)) (id : Nat) : sums.EachLeaf P (.cell id) where
  own := trivial
  reached := by
    intro id' definition _ hcell
    match id', hcell with
    | 0, hcell =>
        cases hcell
        exact ⟨trivial, fun _ => ⟨hone _ _, fun _ => trivial⟩⟩
    | 1, hcell =>
        cases hcell
        exact ⟨⟨⟨hone _ _, fun _ => trivial⟩, hone _ _⟩, hinteger⟩
    | _ + 2, hcell => simp [sums] at hcell

end Grammar

end ParserAlgebra
