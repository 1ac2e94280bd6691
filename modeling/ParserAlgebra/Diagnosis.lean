import ParserAlgebra.Text.Lines
/-!
# Diagnoses

A diagnosis locates a failure in the whole text that was parsed.  It carries notes for a reader;
the first is made with it and further ones can be appended.  A note names a position with its line
and column and, where it can, shows an excerpt of the line with a caret below.  A position beyond the
end is the end (`Text.lineColumn_min`), so a note and the diagnosis name the same place.
-/

namespace ParserAlgebra

/-- A failure, located in the text that was parsed. -/
structure Diagnosis where
  source : Text
  /-- The number of code points of the source before the failure. -/
  pos : Nat
  expected : Text
  rest : Text
  notes : List Text := []
deriving DecidableEq, Repr

namespace Diagnosis

/-- A blank line of the given width with a caret after it. -/
def caretLine (width : Nat) : Text := List.replicate width (.ofChar ' ') ++ Text.ofString "^"

/-- An excerpt of a line around a column, with a caret line below it.  A short way into the line
the excerpt is its beginning; further on it is cut on both sides of the column. -/
def excerpt (line : Text) (column : Nat) : Text :=
  if column ≤ 20 then
    line.take 40 ++ Text.ofString "\n" ++ caretLine (column - 1)
  else
    (line.drop (column - 20)).take 40 ++ Text.ofString "\n" ++ caretLine 20

/-- The excerpt for a position: none if its line or its column lies beyond the lines of the source. -/
def excerpt? (source : Text) (place : Position) : Option Text :=
  match source.splitLines[place.line - 1]? with
  | some line => if place.column ≤ line.length then some (excerpt line place.column) else none
  | none => none

/-- The sentence of a note that names the position. -/
def placeLine (pos : Nat) (place : Position) : Text :=
  Text.ofString "At position " ++ Text.ofNat pos ++ Text.ofString " (line " ++ Text.ofNat place.line ++
    Text.ofString ", column " ++ Text.ofNat place.column ++ Text.ofString ")"

/-- A note on a position of a source, under a message if there is one. -/
def note (source : Text) (pos : Nat) (message : Option Text) : Text :=
  let place := source.lineColumn pos
  Text.joinLines (message.toList ++ [placeLine (min pos source.length) place] ++
    (excerpt? source place).toList)

/-- Appends a note on a position. -/
def appendNote (d : Diagnosis) (pos : Nat) (message : Option Text) : Diagnosis :=
  { d with notes := d.notes ++ [note d.source pos message] }

/-- The diagnosis of a failure at a position, with its first note.  Without a rest of its own the
failure is taken to have left what follows the position. -/
def make (source : Text) (pos : Nat) (expected : Text) (rest : Option Text) : Diagnosis :=
  appendNote { source, pos, expected, rest := rest.getD (source.drop pos) } pos none

/-- What a diagnosis says. -/
def message (d : Diagnosis) : Text := Text.ofString "Expected: " ++ d.expected

/-- The line and the column of the failure. -/
def position (d : Diagnosis) : Position := d.source.lineColumn d.pos

end Diagnosis

end ParserAlgebra
