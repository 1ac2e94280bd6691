import ParserAlgebra.Regex.Match
import ParserAlgebra.Fault
/-!
# Reading regular expressions

The text of a regular expression is cut into tokens, and the tokens are assembled into a tree with
a stack of the groups that are still open.  Groups are numbered by their opening parentheses.

A brace that does not open a well-formed repetition stands for itself, and so do closing braces and
brackets.  A repetition must follow something that can be repeated: not an anchor and not another
repetition.  The backslash turns off the meaning of punctuation; a letter or a digit after it must
be one of the escapes known here.
-/

namespace ParserAlgebra.Regex

/-- The switches of a regular expression. -/
structure Flags where
  /-- Letters match their capital and their small form alike. -/
  caseless : Bool := false
  /-- Anchors for the ends of the text hold at the ends of lines too. -/
  multiline : Bool := false
  /-- The point matches line feeds too. -/
  dotAll : Bool := false
deriving DecidableEq, Repr

/-- A lexical unit of a regular expression. -/
inductive Token where
  | item (p : Pattern) (repeatable : Bool)
  | open (captures : Bool)
  | close
  | bar
  | times (greedy : Bool) (least : Nat) (most : Option Nat)

/-- The character of a code point, for telling apart the marks of the syntax. -/
def charOf (c : CodePoint) : Char := Char.ofNat c.value

/-- The part of a set that an escape stands for, inside and outside brackets. -/
def escapedItem? (c : CodePoint) : Option SetItem :=
  match charOf c with
  | 'd' => some .digit
  | 'D' => some .notDigit
  | 'w' => some .word
  | 'W' => some .notWord
  | 's' => some .blank
  | 'S' => some .notBlank
  | 'n' => some (.range 10 10)
  | 'r' => some (.range 13 13)
  | 't' => some (.range 9 9)
  | 'f' => some (.range 12 12)
  | 'v' => some (.range 11 11)
  | 'a' => some (.range 7 7)
  | _ => if Alphabet.alphanumeric.contains c then none else some (.range c.value c.value)

/-- The anchor that an escape stands for outside brackets. -/
def escapedAnchor? (c : CodePoint) : Option Anchor :=
  match charOf c with
  | 'b' => some .wordEdge
  | 'B' => some .notWordEdge
  | 'A' => some .textStart
  | 'Z' => some .lastPlace
  | _ => none

/-- Reads one member of a bracketed set. -/
def readSetItem : Text → Except Fault (SetItem × Text)
  | [] => .error .badPattern
  | c :: rest =>
    if charOf c = '\\' then
      match rest with
      | [] => .error .badPattern
      | d :: rest =>
        if charOf d = 'b' then .ok (.range 8 8, rest)
        else
          match escapedItem? d with
          | some item => .ok (item, rest)
          | none => .error .badPattern
    else .ok (.range c.value c.value, rest)

/-- The range between two members, each of which must be one code point. -/
def joinRange : SetItem → SetItem → Except Fault SetItem
  | .range lo lo', .range hi hi' =>
    if lo = lo' ∧ hi = hi' ∧ lo ≤ hi then .ok (.range lo hi) else .error .badPattern
  | _, _ => .error .badPattern

/-- Reads the members of a bracketed set up to its end.  A closing bracket in the first place is a
member.  `bound` exceeds the length of the text. -/
def readSetItems : (bound : Nat) → (first : Bool) → Text → Except Fault (List SetItem × Text)
  | 0, _, _ => .error .badPattern
  | bound + 1, first, text =>
    if !first && text.head?.any (charOf · == ']') then .ok ([], text.tail)
    else do
      let (item, rest) ← readSetItem text
      if rest.head?.any (charOf · == '-') then
        if rest.tail.head?.any (charOf · == ']') then
          return ([item, .range 45 45], rest.tail.tail)
        else
          let (last, rest) ← readSetItem rest.tail
          let item ← joinRange item last
          let (items, rest) ← readSetItems bound false rest
          return (item :: items, rest)
      else
        let (items, rest) ← readSetItems bound false rest
        return (item :: items, rest)

/-- Reads a bracketed set after its opening bracket. -/
def readSet (flags : Flags) (text : Text) : Except Fault (CharSet × Text) := do
  let negated := text.head?.any (charOf · == '^')
  let text := if negated then text.tail else text
  let (items, rest) ← readSetItems (text.length + 1) true text
  return ({ items, negated, caseless := flags.caseless }, rest)

/-- Reads the numbers of a repetition after its opening brace; nothing if it is malformed. -/
def readCounts? (text : Text) : Option (Option Nat × Option Nat × Text) :=
  let number? (digits : Text) : Option Nat :=
    if digits.isEmpty then none
    else some (digits.foldl (fun n c => 10 * n + (c.value - 48)) 0)
  let (least, rest) := text.span CodePoint.isDigit
  let comma := rest.head?.any (charOf · == ',')
  let (most, rest) := if comma then rest.tail.span CodePoint.isDigit else (least, rest)
  if rest.head?.any (charOf · == '}') && (comma || !least.isEmpty) then
    some (number? least, number? most, rest.tail)
  else none

/-- The repetition with these bounds, lazy if a question mark follows. -/
def timesToken (least : Nat) (most : Option Nat) (rest : Text) : Except Fault (Token × Text) :=
  if most.any (· < least) then .error .badPattern
  else if rest.head?.any (charOf · == '?') then .ok (.times false least most, rest.tail)
  else .ok (.times true least most, rest)

/-- One code point of a set, as a token. -/
def setToken (flags : Flags) (item : SetItem) : Token :=
  .item (.one { items := [item], caseless := flags.caseless }) true

/-- Reads an escape after its backslash. -/
def readEscape (flags : Flags) : Text → Except Fault (Token × Text)
  | [] => .error .badPattern
  | c :: rest =>
    match escapedAnchor? c, escapedItem? c with
    | some a, _ => .ok (.item (.anchor a) false, rest)
    | none, some item => .ok (setToken flags item, rest)
    | none, none => .error .badPattern

/-- Reads the token that begins with `c`. -/
def readToken (flags : Flags) (c : CodePoint) (rest : Text) : Except Fault (Token × Text) :=
  match charOf c with
  | '\\' => readEscape flags rest
  | '[' => do
    let (set, rest) ← readSet flags rest
    return (.item (.one set) true, rest)
  | '(' =>
    match Text.strip? "?:" rest with
    | some rest => .ok (.open false, rest)
    | none =>
      if rest.head?.any (charOf · == '?') then .error .badPattern else .ok (.open true, rest)
  | ')' => .ok (.close, rest)
  | '|' => .ok (.bar, rest)
  | '*' => timesToken 0 none rest
  | '+' => timesToken 1 none rest
  | '?' => timesToken 0 (some 1) rest
  | '{' =>
    match readCounts? rest with
    | some (least, most, rest) => timesToken (least.getD 0) most rest
    | none => .ok (setToken flags (.range c.value c.value), rest)
  | '.' => .ok (.item (.one (if flags.dotAll then .all else .exceptNewline)) true, rest)
  | '^' => .ok (.item (.anchor (if flags.multiline then .lineStart else .textStart)) false, rest)
  | '$' => .ok (.item (.anchor (if flags.multiline then .lineEnd else .textEnd)) false, rest)
  | _ => .ok (setToken flags (.range c.value c.value), rest)

/-- Cuts a regular expression into tokens.  `bound` is at least the length of the text. -/
def readTokens (flags : Flags) : (bound : Nat) → Text → Except Fault (List Token)
  | _, [] => .ok []
  | 0, _ :: _ => .error .badPattern
  | bound + 1, c :: rest => do
    let (token, rest) ← readToken flags c rest
    return token :: (← readTokens flags bound rest)

/-- A group that is still open, or the whole expression.  Both lists run backwards. -/
structure Frame where
  /-- The number under which the text of the group is remembered, if it is. -/
  index : Option Nat
  /-- The alternatives that are complete. -/
  alternatives : List Pattern := []
  /-- The items of the alternative at hand, each with whether it can be repeated. -/
  items : List (Pattern × Bool) := []

namespace Frame

/-- The alternative at hand. -/
def current (f : Frame) : Pattern := .sequence (f.items.reverse.map (·.1))

/-- The pattern of the alternatives. -/
def body (f : Frame) : Pattern := .choice (f.alternatives.reverse ++ [f.current])

/-- The pattern of the group. -/
def pattern (f : Frame) : Pattern :=
  match f.index with
  | some i => .group i f.body
  | none => f.body

def push (p : Pattern) (repeatable : Bool) (f : Frame) : Frame :=
  { f with items := (p, repeatable) :: f.items }

end Frame

/-- The state of assembling tokens: the innermost open group, those around it, and the number of
groups opened so far. -/
structure Assembly where
  top : Frame
  outer : List Frame := []
  groupCount : Nat := 0

/-- Adds a token. -/
def Assembly.add (a : Assembly) : Token → Except Fault Assembly
  | .item p repeatable => .ok { a with top := a.top.push p repeatable }
  | .open true =>
    .ok { top := { index := some a.groupCount }, outer := a.top :: a.outer,
          groupCount := a.groupCount + 1 }
  | .open false => .ok { a with top := { index := none }, outer := a.top :: a.outer }
  | .close =>
    match a.outer with
    | [] => .error .badPattern
    | f :: outer => .ok { a with top := f.push a.top.pattern true, outer }
  | .bar =>
    .ok { a with top := { a.top with alternatives := a.top.current :: a.top.alternatives,
                                     items := [] } }
  | .times greedy least most =>
    match a.top.items with
    | (p, true) :: items =>
      .ok { a with top := { a.top with items := (.times greedy least most p, false) :: items } }
    | _ => .error .badPattern

end Regex

/-- Reads a regular expression. -/
def Regex.read (source : Text) (flags : Regex.Flags) : Except Fault Regex := do
  let tokens ← Regex.readTokens flags source.length source
  let whole ← tokens.foldlM Regex.Assembly.add { top := { index := none } }
  if whole.outer.isEmpty then
    return { source, pattern := whole.top.pattern, groupCount := whole.groupCount }
  else .error .badPattern

/-- A group keeps its value from an earlier iteration that it took part in. -/
example : ((Regex.read "((a)(b)?)+" {}).toOption.bind (·.match? "aba")).map (·.groups) =
    some [some (Text.ofString "a"), some (Text.ofString "a"), some (Text.ofString "b")] := by
  decide +kernel

end ParserAlgebra
