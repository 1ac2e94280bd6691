import ParserAlgebra.Binary64
/-!
# Values

What a parser outputs.  The outputs of one grammar are of many kinds, and functions given to
`Parser.map` or `Parser.bind` may meet any of them, so the kinds form one type.  Outputs that are
themselves functions are needed for applicative parsing; they come from a closed language
(`Function`), so that values remain data that can be shown.

Equality of values (`Value.same`) compares numbers by what they denote, an integer being equal to
the floating-point number of the same value, and texts, lists and records by their content.  A match
or a function has no equality of content: each is equal to itself alone, and is recognised by its
*serial number*.  Runs make them without one; a value that is kept for later gets its numbers from
`Value.numbered`.
-/

namespace ParserAlgebra

mutual

/-- An output of a parser. -/
inductive Value where
  /-- No output, as of a parser whose output was thrown away. -/
  | nothing
  | text (content : Text)
  | int (n : Int)
  | float (x : Binary64)
  | list (items : List Value)
  /-- A match of a regular expression, with the text of each group that took part. -/
  | regexMatch (serial : Option Nat) (whole : Text) (groups : List (Option Text))
  /-- A value under the name of a construct. -/
  | record (name : Text) (content : Value)
  | function (serial : Option Nat) (f : Function)

/-- A function on values, by description.  `Function.call` says what each does. -/
inductive Function where
  | identity
  /-- The list with the argument as its one item. -/
  | wrap
  /-- Always the same value. -/
  | const (v : Value)
  | record (name : Text)
  /-- The concatenation of a list of texts. -/
  | join
  /-- The text with its ASCII small letters made capitals. -/
  | upper
  /-- The number of code points of a text or of items of a list. -/
  | length
  /-- The integer that a decimal numeral stands for. -/
  | toInt
  /-- Twice an integer. -/
  | double
  /-- The first code point of a text or the first item of a list. -/
  | head
  /-- Refuses every argument. -/
  | refuse (reason : Text)
  /-- The function that pairs its own argument with a later one. -/
  | pairing
  /-- The list of a fixed value and the argument. -/
  | pairWith (first : Value)
  /-- A group of a match, the whole match being group zero. -/
  | group (index : Int)
  /-- One function after another, the first in the list first. -/
  | compose (steps : List Function)

end

instance : Inhabited Value := ⟨.nothing⟩

instance : Inhabited Function := ⟨.identity⟩

/-- Whether two serial numbers are there and agree. -/
def Value.sameSerial : Option Nat → Option Nat → Bool
  | some m, some n => m == n
  | _, _ => false

/-- Whether two values are one undefined number, which only inside another value is equal to
itself. -/
def Value.sameUndefined : Value → Value → Bool
  | .float x, .float y => x.isUndefined && x == y
  | _, _ => false

mutual

/-- Equality of values. -/
def Value.same : Value → Value → Bool
  | .nothing, .nothing => true
  | .text s, .text t => s == t
  | .int m, .int n => m == n
  | .int m, .float y => y.isInt m
  | .float x, .int n => x.isInt n
  | .float x, .float y => x.same y
  | .list us, .list vs => Value.sameAll us vs
  | .regexMatch m _ _, .regexMatch n _ _ => Value.sameSerial m n
  | .record s u, .record t v => s == t && (Value.sameUndefined u v || Value.same u v)
  | .function m _, .function n _ => Value.sameSerial m n
  | _, _ => false

/-- Equality of lists of values, item by item. -/
def Value.sameAll : List Value → List Value → Bool
  | [], [] => true
  | u :: us, v :: vs => (Value.sameUndefined u v || Value.same u v) && Value.sameAll us vs
  | _, _ => false

end

namespace Value

/-- The items of a list of texts, if they all are texts. -/
def texts? : List Value → Option (List Text)
  | [] => some []
  | .text t :: vs => (texts? vs).map (t :: ·)
  | _ :: _ => none

theorem texts?_map_text (ts : List Text) : texts? (ts.map .text) = some ts := by
  induction ts with
  | nil => rfl
  | cons t ts ih => simp [texts?, ih]

/-- Adds a value in front of a list. -/
def cons (v : Value) : Value → Except Fault Value
  | .list vs => .ok (.list (v :: vs))
  | _ => .error .wrongKind

/-- The sum of two values: texts and lists are joined, numbers added.  The sum of an integer and a
floating-point number is a floating-point number. -/
def add : Value → Value → Except Fault Value
  | .text s, .text t => .ok (.text (s ++ t))
  | .list us, .list vs => .ok (.list (us ++ vs))
  | .int m, .int n => .ok (.int (m + n))
  | .float x, .float y => .ok (.float (x + y))
  | .int m, .float y =>
    match Binary64.ofInt? m with
    | some x => .ok (.float (x + y))
    | none => .error .beyondFloats
  | .float x, .int n =>
    match Binary64.ofInt? n with
    | some y => .ok (.float (x + y))
    | none => .error .beyondFloats
  | _, _ => .error .wrongKind

/-- Two texts with a bar between them. -/
def bar : Value → Value → Except Fault Value
  | .text s, .text t => .ok (.text (s ++ Text.ofString "|" ++ t))
  | _, _ => .error .wrongKind

/-- The list of two values. -/
def pair (u v : Value) : Except Fault Value := .ok (.list [u, v])

/-- Refuses every pair of values. -/
def refusePair (reason : Text) (_ _ : Value) : Except Fault Value := .error (.rejected reason)

end Value

end ParserAlgebra
