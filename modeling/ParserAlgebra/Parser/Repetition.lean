import ParserAlgebra.Parser.Sequence
/-!
# Repetition

A parser repeated at least once, a fixed number of times, or with a separator in between.  All
yield the list of outputs, without those of separators.  The open-ended ones rest on `Parser.many`,
so they stop at an iteration that consumes nothing.
-/

namespace ParserAlgebra.Parser

/-- One or more times. -/
def atLeastOne (p : Parser) : Parser := p.prepend p.many

/-- A fixed number of times. -/
def replicate (n : Nat) (p : Parser) : Parser := collect (List.replicate n p)

/-- A fixed number of times, which must not be negative. -/
def replicateOf (n : Int) (p : Parser) : Except Fault Parser :=
  if n < 0 then .error .negativeCount else .ok (replicate n.toNat p)

/-- One or more times with a separator in between. -/
def sepBy1 (separator p : Parser) : Parser := p.prepend (separator.keepSecond p).many

/-- Any number of times with a separator in between. -/
def sepBy (separator p : Parser) : Parser := (sepBy1 separator p).orElse (pure (.list []))

end ParserAlgebra.Parser
