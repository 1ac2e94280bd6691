import ParserAlgebra.Parser.Terminal
import ParserAlgebra.Value.Function
/-!
# Sequences of parsers

One parser after another, with the choice of which outputs are kept: those of one of them, all of
them in a list, or all of them joined.  Each parser of a sequence starts where the one before it
stopped, and the first failure ends the sequence.
-/

namespace ParserAlgebra.Parser

/-- Two parsers in a row, with the output of the second. -/
def keepSecond (p q : Parser) : Parser := p.bind fun _ => q

/-- Two parsers in a row, with the output of the second.  A failure of either is one of the
sequence as a whole. -/
def andThen (p q : Parser) : Parser := (p.keepSecond q).label sequenceLabel

/-- One or more parsers in a row, with the output of the last. -/
def sequence : List Parser → Except Fault Parser
  | [] => .error .noParsers
  | p :: ps => .ok (ps.foldl andThen p)

/-- A parser between two others whose outputs are not kept. -/
def between (start finish middle : Parser) : Parser := (start.keepSecond middle).keepFirst finish

/-- A parser and the white space after it. -/
def token (p : Parser) : Parser := p.keepFirst whitespace

/-- A parser that another one must not follow. -/
def notBefore (p q : Parser) : Parser := p.keepFirst q.notFollowedBy

/-- Applies the output of one parser, a function, to the output of the next. -/
def apply (p q : Parser) : Parser := p.bind fun f => q.map f.call

/-- Two parsers in a row with their outputs added. -/
def add (p q : Parser) : Parser := p.append q Value.add

/-- One or more parsers in a row with their outputs added. -/
def assemble : List Parser → Except Fault Parser
  | [] => .error .noParsers
  | p :: ps => .ok (ps.foldl add p)

/-- A parser and one with a list as output, with the output of the first added to the list. -/
def prepend (p q : Parser) : Parser := p.bind fun v => q.map v.cons

/-- Parsers in a row with the list of their outputs; an output that was thrown away counts as no
value. -/
def collect : List Parser → Parser
  | [] => pure (.list [])
  | p :: ps => p.prepend (collect ps)

end ParserAlgebra.Parser
