import ParserAlgebra.Parser.Basic
/-!
# Ordered choice

Choice among several parsers, the earlier ones being preferred.  When all fail, the failure is that
of the first.
-/

namespace ParserAlgebra.Parser

/-- One or more alternatives in order. -/
def choice : List Parser → Except Fault Parser
  | [] => .error .noParsers
  | p :: ps => .ok (ps.foldl orElse p)

/-- A parser, or else the empty text. -/
def optional (p : Parser) : Parser := p.orElse (pure (.text []))

end ParserAlgebra.Parser
