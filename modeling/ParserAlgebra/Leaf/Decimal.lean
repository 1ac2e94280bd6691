import ParserAlgebra.Regex.Reader
import ParserAlgebra.Value.Basic
/-!
# Decimal fractions in a text

An optional minus sign, then digits with a fraction part, an exponent or both.  Digits with a bare
point need an exponent, and digits alone are no decimal fraction.  The form is given as a regular
expression, and what it matches is converted to the nearest floating-point number.

* `read_source`: the tree of the expression is the one its text describes.
-/

namespace ParserAlgebra.Decimal

open Regex

/-- One decimal digit. -/
def digit : Pattern := .one { items := [.range 48 57] }

def point : Pattern := .one { items := [.range 46 46] }

/-- The letter of an exponent, in either case. -/
def exponentLetter : Pattern := .one { items := [.range 101 101, .range 69 69] }

def sign : Pattern := .one { items := [.range 45 45, .range 43 43] }

/-- An exponent with its letter. -/
def exponent : Pattern := .seq exponentLetter (.seq (.option sign) (.plus digit))

/-- A decimal fraction. -/
def pattern : Pattern :=
  .seq (.option (.one { items := [.range 45 45] })) <|
    .alt (.seq (.plus digit) (.seq point (.seq (.plus digit) (.option exponent)))) <|
    .alt (.seq (.plus digit) (.seq point exponent)) <|
    .alt (.seq (.plus digit) exponent) <|
      .seq point (.seq (.plus digit) (.option exponent))

/-- The text of the regular expression. -/
def source : String :=
  "-?(?:[0-9]+\\.[0-9]+(?:[eE][-+]?[0-9]+)?|[0-9]+\\.[eE][-+]?[0-9]+" ++
    "|[0-9]+[eE][-+]?[0-9]+|\\.[0-9]+(?:[eE][-+]?[0-9]+)?)"

/-- The regular expression of decimal fractions. -/
def regex : Regex := { source, pattern, groupCount := 0 }

theorem read_source : (Regex.read source {}).toOption = some regex := by
  decide +kernel

/-- The exponent that a text spells after its letter: zero for the empty text. -/
def exponentValue (text : Text) : Int :=
  match Text.strip? "-" text with
  | some digits => -(Numeral.value .decimal digits : Int)
  | none => Numeral.value .decimal ((Text.strip? "+" text).getD text)

/-- The floating-point number nearest to what a decimal fraction denotes. -/
def value (text : Text) : Binary64 :=
  let unsigned := (Text.strip? "-" text).getD text
  let whole := unsigned.takeWhile CodePoint.isDigit
  let afterWhole := unsigned.dropWhile CodePoint.isDigit
  let afterPoint := (Text.strip? "." afterWhole).getD afterWhole
  let fraction := afterPoint.takeWhile CodePoint.isDigit
  let exponent := exponentValue (afterPoint.dropWhile CodePoint.isDigit).tail
  .ofDecimal (Text.strip? "-" text).isSome (Numeral.value .decimal (whole ++ fraction))
    (exponent - fraction.length)

/-- Converts a match of the regular expression. -/
def convert : Value → Except Fault Value
  | .regexMatch _ whole _ => .ok (.float (value whole))
  | _ => .error .wrongKind

end ParserAlgebra.Decimal
