import ParserAlgebra.Leaf.Basic
/-!
# Parsers

A parser is a tree: leaves, the primitive ways to combine parsers, and references to recursive
parsers.  A recursive parser is a numbered *cell* of a grammar, whose definition may refer to any
cell, so a finite tree can describe an unbounded one.  All other combinators are defined from the
primitive ones in the neighbouring modules.

The functions of `map` and `append` may refuse their arguments with a fault.  The function of
`bind` yields a parser; one that refuses its argument yields `Parser.raise`.
-/

namespace ParserAlgebra

/-- A parser. -/
inductive Parser where
  | leaf (l : Leaf)
  /-- Applies a function to the output. -/
  | map (p : Parser) (f : Value → Except Fault Value)
  /-- Goes on with a parser that depends on the output. -/
  | bind (p : Parser) (f : Value → Parser)
  /-- Ordered choice: the first of two parsers that succeeds, else the failure of the first. -/
  | orElse (p q : Parser)
  /-- Replaces the failures by one with this label, at the place where the parser began. -/
  | label (text : Text) (p : Parser)
  /-- Throws the output away. -/
  | ignore (p : Parser)
  /-- One parser after another, with the output of the first. -/
  | keepFirst (p q : Parser)
  /-- Succeeds where a parser fails, and consumes nothing. -/
  | notFollowedBy (p : Parser)
  /-- One parser after another, with both outputs joined. -/
  | append (p q : Parser) (concat : Value → Value → Except Fault Value)
  /-- Repeats a parser as long as it succeeds and consumes something, with the list of outputs. -/
  | many (p : Parser)
  /-- Succeeds where a parser succeeds, with its output, and consumes nothing. -/
  | lookAhead (p : Parser)
  /-- Leaves a mark with the input each time it is run. -/
  | probe (tag : Text) (p : Parser)
  /-- The recursive parser with this number. -/
  | cell (id : Nat)

namespace Parser

/-- Succeeds with a value and consumes nothing. -/
def pure (v : Value) : Parser := leaf (.pure v)

/-- Succeeds without an output and consumes nothing. -/
def succeed : Parser := leaf .succeed

instance : Inhabited Parser := ⟨succeed⟩

/-- Always fails with this label. -/
def fail (text : Text) : Parser := leaf (.fail text)

/-- Always stops with a fault. -/
def raise (cause : Fault) : Parser := leaf (.raise cause)

/-- Always gives the same reply, whatever the input. -/
def fixed (r : Reply) : Parser := leaf (.custom fun _ => .ok r)

/-- A parser that could not be built stops when it is run. -/
def ofExcept : Except Fault Parser → Parser
  | .ok p => p
  | .error cause => raise cause

/-- The label of the failures of a sequence. -/
def sequenceLabel : Text := "sequence"

/-- The label of a failed negative lookahead. -/
def notFollowedByLabel : Text := "notFollowedBy"

end Parser

end ParserAlgebra
