import ParserAlgebra.Leaf.Integer
import ParserAlgebra.Leaf.Decimal
import ParserAlgebra.Leaf.Quotation
/-!
# Leaves

The parsers that are not put together from others.  Each is described by its data, and `Leaf.run`
gives its reply to a text.  A leaf either consumes a beginning of the text and succeeds, or fails
with its label; only numerals and strings report a failure inside what they read.

`raise` and `custom` are the ways out: a leaf that always stops with a fault, and a leaf with any
function as its behaviour.
-/

namespace ParserAlgebra

/-- A parser that is not put together from others. -/
inductive Leaf where
  /-- Succeeds with a value and consumes nothing. -/
  | pure (v : Value)
  /-- Succeeds without an output and consumes nothing. -/
  | succeed
  | fail (label : Text)
  /-- One code point for which the predicate holds. -/
  | satisfy (p : CodePoint → Bool) (label : Text)
  | literal (text : Text)
  /-- A text that is equal to the given one in lower case; the output is the text of the input. -/
  | caseless (text : Text)
  /-- The longest beginning for whose code points the predicate holds. -/
  | takeWhile (p : CodePoint → Bool)
  /-- The same, but not the empty one. -/
  | takeWhile1 (p : CodePoint → Bool) (label : Text)
  | regex (r : Regex)
  /-- Skips white space. -/
  | whitespace
  /-- Skips white space, of which there must be some. -/
  | whitespace1
  /-- Succeeds only on the empty text. -/
  | endOfInput
  | integer (radix : Option Radix)
  | quoted (q : Quotation)
  | rawQuoted (quotes : List (Text × Text))
  /-- Stops with a fault. -/
  | raise (cause : Fault)
  | custom (f : Text → Outcome Reply)

namespace Leaf

/-- Whether a code point is skipped as white space. -/
def isWhitespace (c : CodePoint) : Bool := Alphabet.whitespace.contains c

/-- The label of a missing end of the input. -/
def endLabel : Text := "<EOF>"

/-- The reply of a leaf to a text. -/
def run : Leaf → Text → Outcome Reply
  | pure v, input => .ok (.success v input)
  | succeed, input => .ok (.discarded input)
  | fail label, input => .ok (.failure label input)
  | satisfy p label, input =>
    match input with
    | [] => .ok (.failure label [])
    | c :: rest => .ok (if p c then .success (.text [c]) rest else .failure label (c :: rest))
  | literal text, input =>
    match Text.strip? text input with
    | some rest => .ok (.success (.text text) rest)
    | none => .ok (.failure (Text.call "string" text) input)
  | caseless text, input =>
    .ok <|
      if Text.lower (input.take text.length) = Text.lower text then
        .success (.text (input.take text.length)) (input.drop text.length)
      else .failure (Text.call "stringI" text) input
  | takeWhile p, input => .ok (.success (.text (input.takeWhile p)) (input.dropWhile p))
  | takeWhile1 p label, input =>
    .ok <|
      if (input.takeWhile p).isEmpty then .failure label input
      else .success (.text (input.takeWhile p)) (input.dropWhile p)
  | regex r, input =>
    match r.match? input with
    | some m => .ok (.success (.regexMatch none m.whole m.groups) m.rest)
    | none => .ok (.failure (Text.call "regex" r.source) input)
  | whitespace, input => .ok (.discarded (input.dropWhile isWhitespace))
  | whitespace1, input =>
    .ok <|
      if input.head?.any isWhitespace then .discarded (input.dropWhile isWhitespace)
      else .failure "whitespace" input
  | endOfInput, input =>
    .ok (if input.isEmpty then .discarded input else .failure endLabel input)
  | integer radix, input => .ofExcept (Integer.parse radix input)
  | quoted q, input => q.parse input
  | rawQuoted quotes, input => .ok (Quotation.parseRaw quotes input)
  | raise cause, _ => .error (.fault cause)
  | custom f, input => f input

end Leaf

end ParserAlgebra
