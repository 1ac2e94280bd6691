import ParserAlgebra.Parser.Basic
/-!
# Numbers and quoted strings

Ready-made parsers for lexical units with values of their own.
-/

namespace ParserAlgebra.Parser

/-- An integer in a fixed radix, or in the radix that its mark announces. -/
def integer (radix : Option Radix) : Parser := leaf (.integer radix)

/-- An integer in the radix with the given base; base zero leaves the radix to its mark. -/
def integerOf (base : Int) : Except Fault Parser :=
  if base = 0 then .ok (integer none)
  else
    match Radix.ofBase? base with
    | some r => .ok (integer (some r))
    | none => .error (.unsupportedBase base)

/-- A decimal fraction, as a floating-point number. -/
def decimalFraction : Parser := ((leaf (.regex Decimal.regex)).map Decimal.convert).label "float"

/-- A quoted string with escapes. -/
def quoted (start finish : List Text) (escape : Text) (escapes : List (Text × Text)) :
    Except Fault Parser := do
  let quotes ← Quotation.pairQuotes start finish
  return leaf (.quoted { quotes, escape, escapes })

/-- A quoted string without escapes. -/
def rawQuoted (start finish : List Text) : Except Fault Parser := do
  let quotes ← Quotation.pairQuotes start finish
  return leaf (.rawQuoted quotes)

end ParserAlgebra.Parser
