/-!
# Texts as sequences of code points

The input of a parser, the labels of its failures and most of its outputs are texts.  A text is a
list of Unicode **code points**, not of scalar values: a quoted string may spell a lone surrogate
(`\ud83d`), and such a code point is kept as it is.  Lengths, positions and columns therefore
count code points, and a position in a text is the number of code points before it.

* `strip?_eq_some_iff`: stripping a beginning succeeds exactly when the text starts with it, and
  gives back what follows.
* `append_of_split?`: cutting a text at a mark loses nothing.
-/

namespace ParserAlgebra

/-- A Unicode code point, surrogates included. -/
structure CodePoint where
  value : Nat
  value_lt : value < 0x110000 := by decide
deriving DecidableEq, Repr

namespace CodePoint

/-- The code point of a character. -/
def ofChar (c : Char) : CodePoint where
  value := c.toNat
  value_lt := by
    have h := c.valid
    simp only [Char.toNat, UInt32.isValidChar, Nat.isValidChar] at *
    omega

/-- The code point with this number; the replacement character beyond the last code point. -/
def ofNat (n : Nat) : CodePoint :=
  if h : n < 0x110000 then ⟨n, h⟩ else ⟨0xFFFD, by decide⟩

instance : Coe Char CodePoint := ⟨ofChar⟩

instance : Inhabited CodePoint := ⟨ofNat 0⟩

/-- Whether the code point is half of a surrogate pair, which no character is. -/
def isSurrogate (c : CodePoint) : Bool := 0xD800 ≤ c.value && c.value ≤ 0xDFFF

end CodePoint

/-- A text: a sequence of code points. -/
abbrev Text := List CodePoint

namespace Text

/-- The text of a string of characters. -/
def ofString (s : String) : Text := s.toList.map CodePoint.ofChar

instance : Coe String Text := ⟨ofString⟩

/-- The decimal numeral of a natural number. -/
def ofNat (n : Nat) : Text := ofString (toString n)

/-- The decimal numeral of an integer. -/
def ofInt (n : Int) : Text := ofString (toString n)

/-- A name with its argument in parentheses, the form in which leaves label their failures. -/
def call (name : String) (argument : Text) : Text :=
  ofString name ++ ofString "(" ++ argument ++ ofString ")"

/-- What follows `start` in a text that begins with it. -/
def strip? : (start text : Text) → Option Text
  | [], text => some text
  | _ :: _, [] => none
  | c :: start, d :: text => if c = d then strip? start text else none

theorem strip?_eq_some_iff {start text rest : Text} :
    strip? start text = some rest ↔ text = start ++ rest := by
  induction start generalizing text with
  | nil => simp [strip?]
  | cons c start ih =>
    cases text with
    | nil => simp [strip?]
    | cons d text =>
      by_cases h : c = d
      · subst h
        simp [strip?, ih]
      · simp [strip?, h, Ne.symm h]

/-- The text before the first occurrence of `mark` and the text after it. -/
def split? (mark : Text) : Text → Option (Text × Text)
  | [] => (strip? mark []).map ([], ·)
  | c :: text =>
    match strip? mark (c :: text) with
    | some rest => some ([], rest)
    | none => (split? mark text).map fun (before, rest) => (c :: before, rest)

theorem append_of_split? {mark text before rest : Text}
    (h : split? mark text = some (before, rest)) : before ++ (mark ++ rest) = text := by
  induction text generalizing before with
  | nil =>
    simp only [split?, Option.map_eq_some_iff, Prod.mk.injEq] at h
    obtain ⟨r, hr, rfl, rfl⟩ := h
    simpa using (strip?_eq_some_iff.1 hr).symm
  | cons c text ih =>
    simp only [split?] at h
    split at h
    · next r hr =>
      simp only [Option.some.injEq, Prod.mk.injEq] at h
      obtain ⟨rfl, rfl⟩ := h
      simpa using (strip?_eq_some_iff.1 hr).symm
    · simp only [Option.map_eq_some_iff, Prod.mk.injEq] at h
      obtain ⟨⟨b, r⟩, hb, rfl, rfl⟩ := h
      simp [ih hb]

/-- Strictly earlier in the dictionary order of code points. -/
def before : Text → Text → Bool
  | [], [] => false
  | [], _ :: _ => true
  | _ :: _, [] => false
  | c :: s, d :: t => c.value < d.value || (c == d && before s t)

/-- Puts a text into its place in a sorted list without repetitions. -/
def insertSorted (t : Text) : List Text → List Text
  | [] => [t]
  | u :: us => if t = u then u :: us else if before t u then t :: u :: us else u :: insertSorted t us

/-- The members of a list of texts in dictionary order, each once. -/
def sortedDistinct (ts : List Text) : List Text := ts.foldr insertSorted []

end Text

end ParserAlgebra
