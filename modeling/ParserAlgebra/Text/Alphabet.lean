import ParserAlgebra.Text.Basic
/-!
# Alphabets and classes of code points

The fixed alphabets of the library, each listed in code point order, and a small language of
classes (`CharClass`) for the predicates that pick one code point.  Apart from listed members and
ranges, every class here is one of ASCII.
-/

namespace ParserAlgebra

namespace Alphabet

/-- Tab, line feed, form feed, carriage return and space: what the whitespace parsers skip. -/
def whitespace : Text := "\t\n\x0c\r "

def binary : Text := "01"

def octal : Text := "01234567"

def decimal : Text := "0123456789"

def hexadecimal : Text := "0123456789ABCDEFabcdef"

/-- The letters of ASCII. -/
def letters : Text := "ABCDEFGHIJKLMNOPQRSTUVWXYZabcdefghijklmnopqrstuvwxyz"

/-- The decimal digits and the letters of ASCII. -/
def alphanumeric : Text := "0123456789ABCDEFGHIJKLMNOPQRSTUVWXYZabcdefghijklmnopqrstuvwxyz"

end Alphabet

namespace CodePoint

/-- Whether the number of the code point lies between those of two characters, both included. -/
def between (lo hi : Char) (c : CodePoint) : Bool := lo.toNat ≤ c.value && c.value ≤ hi.toNat

def isDigit (c : CodePoint) : Bool := c.between '0' '9'

def isUpper (c : CodePoint) : Bool := c.between 'A' 'Z'

def isLower (c : CodePoint) : Bool := c.between 'a' 'z'

/-- The code point with an ASCII small letter made a capital. -/
def toUpper (c : CodePoint) : CodePoint := if c.isLower then ofNat (c.value - 32) else c

/-- The code point with an ASCII capital made a small letter. -/
def toLower (c : CodePoint) : CodePoint := if c.isUpper then ofNat (c.value + 32) else c

end CodePoint

/-- A class of code points, by description. -/
inductive CharClass where
  | any
  | never
  | digit
  | upper
  | lower
  | space
  | among (members : Text)
  | range (lo hi : Nat)
  | except (excluded : CharClass)
deriving DecidableEq, Repr, Inhabited

namespace CharClass

/-- Whether a code point belongs to the class. -/
def contains : CharClass → CodePoint → Bool
  | any, _ => true
  | never, _ => false
  | digit, c => c.isDigit
  | upper, c => c.isUpper
  | lower, c => c.isLower
  | space, c => c == (' ' : Char)
  | among members, c => members.contains c
  | range lo hi, c => lo ≤ c.value && c.value ≤ hi
  | except excluded, c => !excluded.contains c

end CharClass

end ParserAlgebra
