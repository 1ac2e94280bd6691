import ParserAlgebra.Parser.Basic
/-!
# Continuations

Functions for `Parser.bind` that look at the kind or the value of an output to choose the parser
that goes on.
-/

namespace ParserAlgebra.Continuation

/-- Goes on with a parser made from a text; an output of another kind is a fault. -/
def ofText (f : Text → Except Fault Parser) : Value → Parser
  | .text t => .ofExcept (f t)
  | _ => .raise .wrongKind

/-- Goes on with a parser made from an integer; an output of another kind is a fault. -/
def ofInt (f : Int → Except Fault Parser) : Value → Parser
  | .int n => .ofExcept (f n)
  | _ => .raise .wrongKind

/-- Goes on with the parser of the first case whose value equals the output, or with `otherwise`. -/
def switch (cases : List (Value × Parser)) (otherwise : Parser) (v : Value) : Parser :=
  match cases.find? fun c => c.1.same v with
  | some (_, p) => p
  | none => otherwise

end ParserAlgebra.Continuation
