import ParserAlgebra.Text.LowerCase
import ParserAlgebra.Text.UnprintableTable
/-!
# Texts in quotes

How a text is written when a record or a value shows it: between single quotes, or between double
quotes when it holds a single quote and no double one.  Backslash, tab, line feed and carriage
return have short escapes; every other unprintable code point is written by its number with two,
four or eight hexadecimal digits.
-/

namespace ParserAlgebra

namespace CodePoint

/-- Whether a code point is shown as itself.  The table holds no code point from the space to the
tilde, so those need no search. -/
def isPrintable (c : CodePoint) : Bool :=
  (c.value < 0x7F && 0x20 ≤ c.value) || !inRanges UnprintableTable.ranges c.value

/-- The hexadecimal numeral of a number with exactly `width` digits, in small letters. -/
def hexDigits : (width n : Nat) → Text
  | 0, _ => []
  | width + 1, n => hexDigits width (n / 16) ++ [ofChar (Nat.digitChar (n % 16))]

/-- How a code point is written between quotes of the given kind. -/
def escaped (quote c : CodePoint) : Text :=
  if c = quote ∨ c = ('\\' : Char) then [('\\' : Char), c]
  else if c = ('\t' : Char) then "\\t"
  else if c = ('\n' : Char) then "\\n"
  else if c = ('\r' : Char) then "\\r"
  else if c.isPrintable then [c]
  else if c.value < 0x100 then "\\x" ++ hexDigits 2 c.value
  else if c.value < 0x10000 then "\\u" ++ hexDigits 4 c.value
  else "\\U" ++ hexDigits 8 c.value

end CodePoint

namespace Text

/-- The quote that surrounds a text when it is shown. -/
def quoteFor (text : Text) : CodePoint :=
  if text.contains (.ofChar '\'') && !text.contains (.ofChar '"') then '"' else '\''

/-- The text as it is shown, in quotes. -/
def quoted (text : Text) : Text :=
  [text.quoteFor] ++ text.flatMap (CodePoint.escaped text.quoteFor) ++ [text.quoteFor]

example : Text.quoted "it's" = Text.ofString "\"it's\"" := by decide

example : Text.quoted "a\n\u2028" = Text.ofString "'a\\n\\u2028'" := by decide +kernel

end Text

end ParserAlgebra
