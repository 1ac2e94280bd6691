import ParserAlgebra.Text.Basic
/-!
# Lines and columns

Two notions of a line live side by side.  A *position* (`lineColumn`) counts line feeds only, so a
carriage return before a line feed is the last code point of its line.  The *lines of a text*
(`splitLines`) end at every line boundary that Unicode knows, a carriage return followed by a line
feed being one boundary.  The two agree on texts whose only boundaries are line feeds.

* `lineColumn_min`: a position beyond the end has the coordinates of the end.
-/

namespace ParserAlgebra

/-- A place in a text, both coordinates counted from one. -/
structure Position where
  line : Nat
  column : Nat
deriving DecidableEq, Repr

namespace Text

/-- The line feed. -/
def newline : CodePoint := ('\n' : Char)

/-- The coordinates of the position with `pos` code points before it; those of the end beyond it. -/
def lineColumn (text : Text) (pos : Nat) : Position where
  line := (text.take pos).count newline + 1
  column := ((text.take pos).reverse.takeWhile (· ≠ newline)).length + 1

/-- Whether a code point ends a line. -/
def isLineBreak (c : CodePoint) : Bool :=
  [0x0A, 0x0B, 0x0C, 0x0D, 0x1C, 0x1D, 0x1E, 0x85, 0x2028, 0x2029].contains c.value

/-- Lines put together with line feeds between them. -/
def joinLines : List Text → Text
  | [] => []
  | [line] => line
  | line :: lines => line ++ newline :: joinLines lines

/-- A position beyond the end has the coordinates of the end. -/
theorem lineColumn_min (text : Text) (pos : Nat) :
    text.lineColumn (min pos text.length) = text.lineColumn pos := by
  have h : text.take (min pos text.length) = text.take pos := by
    rw [List.take_eq_take_iff]
    omega
  simp only [Text.lineColumn, h]

/-- The lines of a text without their ends.  A break at the very end opens no further line. -/
def splitLines (text : Text) : List Text :=
  go [] text
where
  /-- Goes on with the current line, whose code points so far are given backwards. -/
  go (current : Text) : Text → List Text
    | [] => if current.isEmpty then [] else [current.reverse]
    | [c] => if isLineBreak c then [current.reverse] else [(c :: current).reverse]
    | c :: d :: rest =>
      if c.value = 0x0D ∧ d = newline then current.reverse :: go [] rest
      else if isLineBreak c then current.reverse :: go [] (d :: rest)
      else go (c :: current) (d :: rest)

example : splitLines "a\r\nb\x0bc\n" = ([("a" : Text), "b", "c"] : List Text) := by decide

end Text

end ParserAlgebra
