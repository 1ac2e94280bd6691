import ParserAlgebra.Text.Basic
/-!
# Faults

A fault cuts the building or the running of a parser short.  It is not a failed parse: a failure
says that the input was rejected, a fault that the grammar is malformed or that a function of the
grammar refused its argument.  Each cause has its own constructor, and all wording is in
`Fault.message`.

A run that is cut short stops with a fault, or is left `unfinished` because it would nest without
end (`Stop`).
-/

namespace ParserAlgebra

/-- The cause for which a build, a run or the reading of a reply was cut short. -/
inductive Fault where
  /-- A recursive parser was run before it was given its definition. -/
  | undefinedCell
  /-- A definition was given to a parser that was not declared as recursive. -/
  | notRecursive
  /-- A second definition was given to a recursive parser. -/
  | alreadyDefined
  /-- The output of a failure was read. -/
  | outputOfFailure (expected : Text)
  /-- The label of a success was read. -/
  | expectedOfSuccess
  /-- A diagnosis was asked of a reply that is not a failure. -/
  | notAFailure
  /-- A parser for one character was given another number of them. -/
  | notOneCharacter (caseless : Bool)
  /-- A parser for a literal was given the empty text. -/
  | emptyLiteral (caseless : Bool)
  /-- A combination of parsers was given none. -/
  | noParsers
  | negativeCount
  | unsupportedBase (base : Int)
  /-- The opening and the closing quotes are not equally many. -/
  | unpairedQuotes
  /-- A regular expression is malformed. -/
  | badPattern
  /-- A decimal numeral is longer than the library converts. -/
  | numeralTooLong
  /-- An integer lies beyond the range of floating-point numbers. -/
  | beyondFloats
  /-- A function was given a value of a kind that it does not take. -/
  | wrongKind
  /-- A match has no group of this number. -/
  | noSuchGroup
  /-- A function refused its argument, in its own words. -/
  | rejected (reason : Text)
deriving DecidableEq, Repr

/-- What a fault says. -/
def Fault.message : Fault → Text
  | undefinedCell =>
    "Can't run a recursive parser that hasn't been set up yet. A parser created by recursive() " ++
      Text.ofString "must be given its definition with .recurse(parser) before it can be used."
  | notRecursive =>
    "Can't recurse on a non-recursive parser. Create a recursive parser first using recursive(), " ++
      Text.ofString "then call .recurse() on it."
  | alreadyDefined => "recurse() can only be called once on a recursive parser."
  | outputOfFailure expected =>
    "Can't read the output of a failed parse result (expected: " ++ expected ++ ")."
  | expectedOfSuccess => "Can't read the label of a successful parse result."
  | notAFailure => "Only a failed parse result can be located."
  | notOneCharacter caseless => (if caseless then "char_i" else "char") ++
      Text.ofString "() takes exactly one character."
  | emptyLiteral caseless => (if caseless then "string_i" else "string") ++
      Text.ofString "() requires a non-empty string."
  | noParsers => "At least one parser required."
  | negativeCount => "Can't repeat a negative number of times."
  | unsupportedBase base => "Unsupported base: " ++ Text.ofInt base
  | unpairedQuotes => "The number of starting quotes and ending quotes don't match."
  | badPattern => "The regular expression is malformed."
  | numeralTooLong => "The decimal numeral has too many digits."
  | beyondFloats => "The integer is too large for a floating-point number."
  | wrongKind => "The value is not of the kind that the function takes."
  | noSuchGroup => "The match has no such group."
  | rejected reason => reason

/-- Why a run gave no result. -/
inductive Stop where
  | fault (cause : Fault)
  /-- The run nests deeper than its bound, or repeats a step that makes no progress. -/
  | unfinished
deriving DecidableEq, Repr

/-- The result of something that may be cut short. -/
abbrev Outcome (α : Type) := Except Stop α

/-- The result of something that ends, but possibly with a fault. -/
def Outcome.ofExcept {α : Type} : Except Fault α → Outcome α
  | .ok a => .ok a
  | .error cause => .error (.fault cause)

end ParserAlgebra
