import ParserAlgebra.Reply
import ParserAlgebra.Numeral
/-!
# Quoted strings in a text

A quoted string begins with an opening quote and ends with the closing quote that belongs to it.
In a plain one the contents are taken as they are.  In one with escapes the contents are a
sequence of items: an escape sequence with its meaning, or one code point that means itself.  At
each place an escape is looked for first, then the closing quote, so a closing quote that begins
with the escape is never seen.

After the escape comes a sequence of the table (the first that fits), or `u` with four hexadecimal
digits, or any other code point, which means itself.

Scanning ends because each item consumes something.  The one exception is an empty escape with an
empty sequence in the table, an item that can be read for ever; then scanning is `unfinished`.
-/

namespace ParserAlgebra

/-- How a quoted string with escapes is written. -/
structure Quotation where
  /-- The opening quotes, each with its closing quote. -/
  quotes : List (Text × Text)
  escape : Text
  /-- The escape sequences of one's own, without the escape, and what they mean. -/
  escapes : List (Text × Text)

/-- The contents of a quoted string from some place on. -/
inductive Contents where
  /-- Contents up to a closing quote, and the text after it. -/
  | closed (content rest : Text)
  | broken (expected rest : Text)

/-- The contents with an item in front. -/
def Contents.prepend (meaning : Text) : Contents → Contents
  | closed content rest => closed (meaning ++ content) rest
  | broken expected rest => broken expected rest

/-- The reply for the contents of a string. -/
def Contents.reply : Contents → Reply
  | closed content rest => .success (.text content) rest
  | broken expected rest => .failure expected rest

namespace Quotation

/-- The quotes that open and close a string if no others are given. -/
def plainQuotes : List Text := ["\"", "'"]

/-- The quotes that open a plain string if no others are given. -/
def rawQuotes : List Text := ["r\"", "r'"]

def backslash : Text := "\\"

/-- The escape sequences of control characters. -/
def standardEscapes : List (Text × Text) :=
  [("b", "\x08"), ("f", "\x0c"), ("n", "\n"), ("r", "\r"), ("t", "\t")]

/-- Pairs the opening quotes with the closing ones. -/
def pairQuotes (start finish : List Text) : Except Fault (List (Text × Text)) :=
  if start.length = finish.length then .ok (start.zip finish) else .error .unpairedQuotes

/-- Gives a sequence a meaning, in its old place if it had one. -/
def define (sequence meaning : Text) : List (Text × Text) → List (Text × Text)
  | [] => [(sequence, meaning)]
  | (s, m) :: table =>
    if s = sequence then (s, meaning) :: table else (s, m) :: define sequence meaning table

/-- The table in which each sequence of a list has its first place and its last meaning. -/
def tableOf (entries : List (Text × Text)) : List (Text × Text) :=
  entries.foldl (fun table (s, m) => define s m table) []

/-- The first pair of a list whose first text begins the input: the second text, and what follows. -/
def firstFit (table : List (Text × Text)) (input : Text) : Option (Text × Text) :=
  table.findSome? fun (s, m) => (Text.strip? s input).map fun rest => (m, rest)

/-- What stands at a place of the contents. -/
inductive Item where
  | content (meaning rest : Text)
  | close (rest : Text)
  | broken (expected rest : Text)

/-- What follows the escape. -/
def itemAfterEscape (q : Quotation) (text : Text) : Item :=
  match firstFit q.escapes text with
  | some (meaning, rest) => .content meaning rest
  | none =>
    match text with
    | [] => .broken (Text.ofString "a character to escape after `" ++ q.escape ++ Text.ofString "`") []
    | c :: rest =>
      if c = CodePoint.ofChar 'u' then
        if (rest.take 4).length = 4 && (rest.take 4).all Radix.hexadecimal.hasDigit then
          .content [.ofNat (Numeral.value .hexadecimal (rest.take 4))] (rest.drop 4)
        else .broken "4 hexadecimal characters after unicode escape" rest
      else .content [c] rest

/-- The label of a string that is not closed. -/
def unclosed (closing : Text) : Text :=
  Text.ofString "closing quote `" ++ closing ++ Text.ofString "`"

/-- What stands at the beginning of a text. -/
def item (q : Quotation) (closing text : Text) : Item :=
  match Text.strip? q.escape text with
  | some rest => q.itemAfterEscape rest
  | none =>
    match Text.strip? closing text with
    | some rest => .close rest
    | none =>
      match text with
      | [] => .broken (unclosed closing) []
      | c :: rest => .content [c] rest

/-- Reads the contents up to the closing quote.  `bound` exceeds the length of the text. -/
def scan (q : Quotation) (closing : Text) : (bound : Nat) → Text → Outcome Contents
  | 0, _ => .error .unfinished
  | bound + 1, text =>
    match q.item closing text with
    | .content meaning rest => (scan q closing bound rest).map (.prepend meaning)
    | .close rest => .ok (.closed [] rest)
    | .broken expected rest => .ok (.broken expected rest)

/-- Reads a quoted string with escapes. -/
def parse (q : Quotation) (input : Text) : Outcome Reply :=
  match firstFit q.quotes input with
  | some (closing, rest) => (q.scan closing (rest.length + 1) rest).map Contents.reply
  | none => .ok (.failure "quoted string" input)

/-- Reads a plain quoted string. -/
def parseRaw (quotes : List (Text × Text)) (input : Text) : Reply :=
  match firstFit quotes input with
  | some (closing, rest) =>
    match Text.split? closing rest with
    | some (content, rest) => .success (.text content) rest
    | none => .failure (unclosed closing) []
  | none => .failure "raw quoted string" input

end Quotation

end ParserAlgebra
