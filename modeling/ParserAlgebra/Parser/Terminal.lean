import ParserAlgebra.Parser.Basic
/-!
# Terminal parsers

The parsers of code points, of fixed texts and of runs of code points, each naming itself in the
label of its failures.  Where a parser is made for a text that has to be one code point, or not
empty, or well-formed, the making of it may fail; the functions with suffix `Of` check their
argument.
-/

namespace ParserAlgebra.Parser

/-- One code point for which a predicate holds. -/
def satisfy (p : CodePoint → Bool) (label : Text) : Parser := leaf (.satisfy p label)

/-- Any code point. -/
def anySingle : Parser := satisfy (fun _ => true) "anySingle"

/-- The given code point. -/
def char (c : CodePoint) : Parser := satisfy (· == c) (Text.call "char" [c])

/-- The code point that a text consists of. -/
def charOf : Text → Except Fault Parser
  | [c] => .ok (char c)
  | _ => .error (.notOneCharacter false)

/-- A code point that is equal to the given one in lower case. -/
def caselessChar (c : CodePoint) : Parser :=
  satisfy (fun d => Text.lower [d] == Text.lower [c]) (Text.call "charI" [c])

/-- A code point that is equal in lower case to the one that a text consists of. -/
def caselessCharOf : Text → Except Fault Parser
  | [c] => .ok (caselessChar c)
  | _ => .error (.notOneCharacter true)

/-- The given text. -/
def literal (text : Text) : Parser := leaf (.literal text)

/-- The given text, which must not be empty. -/
def literalOf (text : Text) : Except Fault Parser :=
  if text.isEmpty then .error (.emptyLiteral false) else .ok (literal text)

/-- A text of the length of the given one that is equal to it in lower case. -/
def caseless (text : Text) : Parser := leaf (.caseless text)

/-- A text that is equal in lower case to the given one, which must not be empty. -/
def caselessOf (text : Text) : Except Fault Parser :=
  if text.isEmpty then .error (.emptyLiteral true) else .ok (caseless text)

/-- A code point that is one of the given texts. -/
def oneOf (members : List Text) : Parser :=
  satisfy (fun c => members.contains [c]) (Text.call "oneOf" (Text.sortedDistinct members).flatten)

/-- A code point that is none of the given texts. -/
def noneOf (members : List Text) : Parser :=
  satisfy (fun c => !members.contains [c])
    (Text.call "noneOf" (Text.sortedDistinct members).flatten)

/-- A code point of an alphabet. -/
def ofAlphabet (alphabet : Text) (label : Text) : Parser := satisfy alphabet.contains label

def digit : Parser := ofAlphabet Alphabet.decimal "digitChar"

def binaryDigit : Parser := ofAlphabet Alphabet.binary "binDigitChar"

def octalDigit : Parser := ofAlphabet Alphabet.octal "octDigitChar"

def hexDigit : Parser := ofAlphabet Alphabet.hexadecimal "hexDigitChar"

def letter : Parser := ofAlphabet Alphabet.letters "alphaChar"

def alphanumeric : Parser := ofAlphabet Alphabet.alphanumeric "alphaNumChar"

/-- The longest beginning for whose code points a predicate holds, possibly empty. -/
def takeWhile (p : CodePoint → Bool) : Parser := leaf (.takeWhile p)

/-- The longest beginning for whose code points a predicate holds, which must not be empty. -/
def takeWhile1 (p : CodePoint → Bool) (label : Text) : Parser := leaf (.takeWhile1 p label)

/-- Skips white space. -/
def whitespace : Parser := leaf .whitespace

/-- Skips white space, of which there must be some. -/
def whitespace1 : Parser := leaf .whitespace1

/-- The end of the input. -/
def endOfInput : Parser := leaf .endOfInput

/-- A match of a regular expression. -/
def regex (r : Regex) : Parser := leaf (.regex r)

/-- A match of the regular expression that a text spells. -/
def regexOf (source : Text) (flags : Regex.Flags) : Except Fault Parser :=
  (Regex.read source flags).map regex

end ParserAlgebra.Parser
