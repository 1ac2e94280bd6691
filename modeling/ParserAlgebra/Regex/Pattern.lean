import ParserAlgebra.Text.Alphabet
/-!
# Patterns of regular expressions

The syntax tree of a regular expression.  Flags are resolved while an expression is read, so they
show here as different anchors and as the `caseless` field of a set.  The classes of digits and of
word characters, and the folding of case, are those of ASCII.
-/

namespace ParserAlgebra

namespace CodePoint

/-- Whether a code point is blank: a white space of Unicode or an information separator. -/
def isBlank (c : CodePoint) : Bool :=
  (9 ≤ c.value && c.value ≤ 13) || (28 ≤ c.value && c.value ≤ 32) ||
    (0x2000 ≤ c.value && c.value ≤ 0x200A) ||
    [0x85, 0xA0, 0x1680, 0x2028, 0x2029, 0x202F, 0x205F, 0x3000].contains c.value

/-- Whether a code point is an ASCII letter, a decimal digit or the low line. -/
def isWord (c : CodePoint) : Bool := Alphabet.alphanumeric.contains c || c == ('_' : Char)

end CodePoint

namespace Regex

/-- A part of a set of code points. -/
inductive SetItem where
  | range (lo hi : Nat)
  | digit
  | notDigit
  | word
  | notWord
  | blank
  | notBlank
deriving DecidableEq, Repr

/-- Whether a code point belongs to the part. -/
def SetItem.contains : SetItem → CodePoint → Bool
  | range lo hi, c => lo ≤ c.value && c.value ≤ hi
  | digit, c => c.isDigit
  | notDigit, c => !c.isDigit
  | word, c => c.isWord
  | notWord, c => !c.isWord
  | blank, c => c.isBlank
  | notBlank, c => !c.isBlank

/-- A set of code points: those of some parts, or all others. -/
structure CharSet where
  items : List SetItem
  negated : Bool := false
  /-- Whether a letter stands for its capital and its small form. -/
  caseless : Bool := false
deriving DecidableEq, Repr

namespace CharSet

/-- Whether one of the parts holds the code point. -/
def listed (s : CharSet) (c : CodePoint) : Bool := s.items.any (·.contains c)

/-- Whether the set holds a code point. -/
def contains (s : CharSet) (c : CodePoint) : Bool :=
  (s.listed c || (s.caseless && (s.listed c.toLower || s.listed c.toUpper))) != s.negated

/-- The set of one code point. -/
def single (c : CodePoint) : CharSet := { items := [.range c.value c.value] }

/-- The set of all code points but the line feed. -/
def exceptNewline : CharSet := { items := [.range 10 10], negated := true }

/-- The set of all code points. -/
def all : CharSet := { items := [], negated := true }

end CharSet

/-- A condition on a place between two code points. -/
inductive Anchor where
  | textStart
  | lineStart
  /-- The end of the text, or in front of a line feed that ends it. -/
  | textEnd
  | lineEnd
  /-- The end of the text and nothing else. -/
  | lastPlace
  | wordEdge
  | notWordEdge
deriving DecidableEq, Repr

/-- Whether exactly one side of a place is a word character. -/
def atWordEdge (before : Option CodePoint) (rest : Text) : Bool :=
  before.any CodePoint.isWord != rest.head?.any CodePoint.isWord

/-- Whether the condition holds between the code point before the place and the rest after it. -/
def Anchor.holds : Anchor → Option CodePoint → Text → Bool
  | textStart, before, _ => before.isNone
  | lineStart, before, _ => before.all (· == CodePoint.ofChar '\n')
  | textEnd, _, rest => rest.isEmpty || rest == [CodePoint.ofChar '\n']
  | lineEnd, _, rest => rest.head?.all (· == CodePoint.ofChar '\n')
  | lastPlace, _, rest => rest.isEmpty
  | wordEdge, before, rest => atWordEdge before rest
  | notWordEdge, before, rest => !atWordEdge before rest

/-- The syntax tree of a regular expression. -/
inductive Pattern where
  /-- The empty text. -/
  | empty
  /-- One code point of a set. -/
  | one (set : CharSet)
  | anchor (a : Anchor)
  | seq (p q : Pattern)
  /-- Either of two patterns, the first being preferred. -/
  | alt (p q : Pattern)
  /-- A pattern whose text is remembered under a number, counted from zero. -/
  | group (index : Nat) (p : Pattern)
  /-- A pattern repeated at least `least` and at most `most` times, preferring many repetitions
  (`greedy`) or few. -/
  | times (greedy : Bool) (least : Nat) (most : Option Nat) (p : Pattern)
deriving DecidableEq, Repr

namespace Pattern

/-- One pattern after another. -/
def sequence : List Pattern → Pattern
  | [] => empty
  | [p] => p
  | p :: ps => seq p (sequence ps)

/-- One of several patterns, the earlier ones being preferred. -/
def choice : List Pattern → Pattern
  | [] => empty
  | [p] => p
  | p :: ps => alt p (choice ps)

/-- As many repetitions as possible, possibly none. -/
def star (p : Pattern) : Pattern := times true 0 none p

/-- As many repetitions as possible, at least one. -/
def plus (p : Pattern) : Pattern := times true 1 none p

/-- One occurrence if possible. -/
def option (p : Pattern) : Pattern := times true 0 (some 1) p

end Pattern

end Regex

end ParserAlgebra
