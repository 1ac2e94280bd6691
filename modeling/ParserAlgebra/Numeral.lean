import ParserAlgebra.Fault
import ParserAlgebra.Text.Alphabet
/-!
# Positional numerals

Four radixes with their digits, and the value of a digit sequence.  Hexadecimal digits come in both
cases.  A decimal numeral is converted only up to `decimalLimit` digits, leading zeros included:
the cost of conversion grows faster than the length, and the bound keeps hostile input cheap.  The
other radixes are powers of two and have no bound.
-/

namespace ParserAlgebra

/-- A radix of numerals. -/
inductive Radix where
  | binary
  | octal
  | decimal
  | hexadecimal
deriving DecidableEq, Repr

namespace Radix

def base : Radix → Nat
  | binary => 2
  | octal => 8
  | decimal => 10
  | hexadecimal => 16

/-- The radix with the given base, if there is one. -/
def ofBase? (n : Int) : Option Radix :=
  [binary, octal, decimal, hexadecimal].find? fun r => (r.base : Int) == n

def digits : Radix → Text
  | binary => Alphabet.binary
  | octal => Alphabet.octal
  | decimal => Alphabet.decimal
  | hexadecimal => Alphabet.hexadecimal

/-- Whether a code point is a digit of the radix. -/
def hasDigit (r : Radix) (c : CodePoint) : Bool := r.digits.contains c

end Radix

namespace CodePoint

/-- The value of a digit or a hexadecimal letter. -/
def digitValue (c : CodePoint) : Nat :=
  if c.isDigit then c.value - 48
  else if c.isLower then c.value - 87
  else c.value - 55

end CodePoint

namespace Numeral

/-- The positional value of a digit sequence, the most significant digit first. -/
def value (r : Radix) (digits : Text) : Nat :=
  digits.foldl (fun n c => r.base * n + c.digitValue) 0

/-- The longest decimal numeral that is converted. -/
def decimalLimit : Nat := 4300

/-- The value of a digit sequence, refused if it is a decimal one beyond the limit. -/
def read (r : Radix) (digits : Text) : Except Fault Nat :=
  if r = .decimal ∧ decimalLimit < digits.length then .error .numeralTooLong
  else .ok (value r digits)

example : value .hexadecimal "fF" = 255 := by decide

end Numeral

end ParserAlgebra
