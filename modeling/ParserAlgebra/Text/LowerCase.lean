import ParserAlgebra.Text.Alphabet
import ParserAlgebra.Text.CaseTable
/-!
# Lower case

The full lower-case mapping of Unicode on texts.  Most code points are mapped one by one and to one
code point.  There are two exceptions: the capital I with a dot above becomes two code points, and
a capital sigma becomes a final sigma at the end of a word, which depends on its neighbours within
the text that is mapped.

* `lower_singleton`: alone, a code point is mapped by the table, so a lone sigma is never final.
-/

namespace ParserAlgebra

/-- Whether a number lies in one of the ranges, both ends included. -/
def inRanges (ranges : List (Nat × Nat)) (n : Nat) : Bool :=
  ranges.any fun (lo, hi) => lo ≤ n && n ≤ hi

namespace CodePoint

/-- The capital sigma. -/
def capitalSigma : CodePoint := 'Σ'

/-- The small sigma inside a word. -/
def smallSigma : CodePoint := 'σ'

/-- The small sigma at the end of a word. -/
def finalSigma : CodePoint := 'ς'

/-- The lower-case form of a code point by itself. -/
def lower (c : CodePoint) : Text :=
  if c.value < 0x80 then [c.toLower]
  else if c.value = 0x130 then [('i' : Char), ofNat 0x307]
  else
    match CaseTable.lowerRuns.find? fun r =>
        r.first ≤ c.value && c.value ≤ r.last && (c.value - r.first) % r.step == 0 with
    | some r => [ofNat ((c.value : Int) + r.shift).toNat]
    | none => [c]

/-- Whether a code point has case and is not case-ignorable. -/
def isCased (c : CodePoint) : Bool := inRanges CaseTable.cased c.value

/-- Whether the search for a neighbouring letter steps over a code point. -/
def isCaseIgnorable (c : CodePoint) : Bool := inRanges CaseTable.caseIgnorable c.value

end CodePoint

namespace Text

/-- Whether the first code point that is not case-ignorable is cased. -/
def startsCased (text : Text) : Bool :=
  match text.dropWhile CodePoint.isCaseIgnorable with
  | [] => false
  | c :: _ => c.isCased

/-- The lower-case form of a code point that stands after `before`, which is given backwards, and
in front of `after`. -/
def lowerAt (before : Text) (c : CodePoint) (after : Text) : Text :=
  if c = .capitalSigma then
    if startsCased before && !startsCased after then [.finalSigma] else [.smallSigma]
  else c.lower

/-- The lower-case form of a text. -/
def lower (text : Text) : Text :=
  go [] text
where
  /-- Goes on after the code points in `before`, which are given backwards. -/
  go (before : Text) : Text → Text
    | [] => []
    | c :: rest => lowerAt before c rest ++ go (c :: before) rest

theorem lower_singleton (c : CodePoint) : lower [c] = lowerAt [] c [] := by
  simp [lower, lower.go]

/-- A sigma is final at the end of a word, and not before a letter. -/
example : lower "ΟΔΟΣ ΣΑ" = Text.ofString "οδος σα" := by decide +kernel

end Text

end ParserAlgebra
