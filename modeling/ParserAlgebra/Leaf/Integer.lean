import ParserAlgebra.Reply
/-!
# Integer numerals in a text

An optional minus sign and digits.  Either the radix is fixed, or it is read from a mark in front
of the digits (`0b`, `0o`, `0x`) and is decimal without one.  A mark commits to its radix: when no
digit follows it, the failure is reported right after the mark, and the zero of the mark is not
read as a number.
-/

namespace ParserAlgebra

namespace Radix

/-- The marks that announce a radix. -/
def marks : List (Text × Radix) := [("0b", binary), ("0o", octal), ("0x", hexadecimal)]

def name : Radix → String
  | binary => "binary"
  | octal => "octal"
  | decimal => "decimal"
  | hexadecimal => "hexadecimal"

/-- The mark at the beginning of a text: its spelling, its radix and the text after it. -/
def marked? (text : Text) : Option (Text × Radix × Text) :=
  marks.findSome? fun (mark, r) => (Text.strip? mark text).map fun rest => (mark, r, rest)

end Radix

namespace Integer

/-- A text without a minus sign at its beginning, and whether it had one. -/
def splitSign (text : Text) : Bool × Text :=
  match Text.strip? "-" text with
  | some rest => (true, rest)
  | none => (false, text)

/-- The reply for the digits at the beginning of a text, or `failure` if there are none. -/
def ofDigits (negative : Bool) (r : Radix) (text : Text) (failure : Reply) : Except Fault Reply :=
  if (text.takeWhile r.hasDigit).isEmpty then .ok failure
  else do
    let n ← Numeral.read r (text.takeWhile r.hasDigit)
    return .success (.int (if negative then -(n : Int) else n)) (text.dropWhile r.hasDigit)

/-- The label of a mark without digits. -/
def missingDigit (mark : Text) (r : Radix) : Text :=
  Text.ofString (r.name ++ " digit after ") ++ mark

/-- Reads an integer in a fixed radix, or in the radix that its mark announces. -/
def parse (radix : Option Radix) (input : Text) : Except Fault Reply :=
  let (negative, rest) := splitSign input
  match radix with
  | some r => ofDigits negative r rest (.failure "integer" input)
  | none =>
    match Radix.marked? rest with
    | some (mark, r, rest) => ofDigits negative r rest (.failure (missingDigit mark r) rest)
    | none => ofDigits negative .decimal rest (.failure "integer" input)

end Integer

end ParserAlgebra
