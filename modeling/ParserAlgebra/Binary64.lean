import ParserAlgebra.Numeral
/-!
# Binary floating-point numbers

The 64-bit binary format, held as its bits: sign, eleven bits of exponent, fifty-two of fraction.
Reading a decimal and adding two numbers are exact computations on integers followed by one
rounding to the nearest number, ties to the even one.  Beyond the largest number the nearest is
infinity.

The magnitude of a number, the bits without the sign, grows with its absolute value.  So rounding
yields a magnitude, and infinity is simply the largest magnitude it can yield.
-/

namespace ParserAlgebra

/-- A floating-point number, by its bits. -/
structure Binary64 where
  bits : UInt64
deriving DecidableEq, Repr

namespace Binary64

/-- A power of two. -/
def pow2 (n : Nat) : Nat := Nat.pow 2 n

/-- The number with this sign and magnitude. -/
def ofMagnitude (negative : Bool) (magnitude : Nat) : Binary64 :=
  ⟨UInt64.ofNat ((if negative then pow2 63 else 0) + magnitude)⟩

/-- The magnitude of infinity. -/
def infinity : Nat := 2047 * pow2 52

/-- The result of subtracting infinity from itself. -/
def undefined : Binary64 := ofMagnitude true (infinity + pow2 51)

def isNegative (x : Binary64) : Bool := pow2 63 ≤ x.bits.toNat

/-- The bits without the sign. -/
def magnitude (x : Binary64) : Nat := x.bits.toNat % pow2 63

/-- Whether the bits stand for no number at all. -/
def isUndefined (x : Binary64) : Bool := infinity < x.magnitude

/-- A finite number as `m · 2 ^ q`; nothing for an infinite or undefined one. -/
def dyadic? (x : Binary64) : Option (Int × Int) :=
  let field := x.magnitude / pow2 52
  let fraction := x.magnitude % pow2 52
  if field = 2047 then none
  else
    let m : Nat := if field = 0 then fraction else pow2 52 + fraction
    some (if x.isNegative then -(m : Int) else m, (max field 1 : Nat) - 1075)

/-- The integer nearest to `n / d`, of two equally near ones the even one. -/
def divNearest (n d : Nat) : Nat :=
  if d < 2 * (n % d) ∨ (2 * (n % d) = d ∧ n / d % 2 = 1) then n / d + 1 else n / d

/-- The integer nearest to `num / den / 2 ^ q`. -/
def scaled (num den : Nat) (q : Int) : Nat :=
  divNearest (num * pow2 (-q).toNat) (den * pow2 q.toNat)

/-- The exponent `q` for which `num / den` has fifty-three bits in front of the point when it is
written as a multiple of `2 ^ q`, or the least exponent of the format. -/
def exponentFor (num den : Nat) : Int :=
  let q := max ((num.log2 : Int) - den.log2 - 53) (-1074)
  if pow2 53 ≤ num * pow2 (-q).toNat / (den * pow2 q.toNat) then q + 1 else q

/-- The magnitude nearest to `num / den`.  Rounding up to the next power of two carries from the
fraction into the exponent by itself. -/
def roundRatio (num den : Nat) : Nat :=
  if num = 0 then 0
  else
    let q := exponentFor num den
    min infinity ((q + 1074).toNat * pow2 52 + scaled num den q)

/-- The number nearest to `± digits · 10 ^ exponent`.  Exponents far beyond the range of the format
are decided without computing the power. -/
def ofDecimal (negative : Bool) (digits : Nat) (exponent : Int) : Binary64 :=
  ofMagnitude negative <|
    if digits = 0 then 0
    else if 400 < exponent then infinity
    else if exponent + digits.log2 < -400 then 0
    else roundRatio (digits * Nat.pow 10 exponent.toNat) (Nat.pow 10 (-exponent).toNat)

/-- The number nearest to `m · 2 ^ q`, where `m` is not zero. -/
def ofDyadic (m q : Int) : Binary64 :=
  ofMagnitude (m < 0) (roundRatio (m.natAbs * pow2 q.toNat) (pow2 (-q).toNat))

/-- The number nearest to an integer, if that is not infinite. -/
def ofInt? (n : Int) : Option Binary64 :=
  if roundRatio n.natAbs 1 = infinity then none
  else some (ofMagnitude (n < 0) (roundRatio n.natAbs 1))

/-- The sum, rounded once.  A sum of zero is negative only if both numbers are. -/
def add (x y : Binary64) : Binary64 :=
  match x.dyadic?, y.dyadic? with
  | some (m, q), some (n, r) =>
    let least := min q r
    let sum := m * pow2 (q - least).toNat + n * pow2 (r - least).toNat
    if sum = 0 then ofMagnitude (x.isNegative && y.isNegative) 0 else ofDyadic sum least
  | some _, none => y
  | none, some _ => x
  | none, none =>
    if x.isUndefined then x
    else if y.isUndefined then y
    else if x.isNegative = y.isNegative then x
    else undefined

instance : Add Binary64 := ⟨add⟩

/-- Equality of the numbers: the two zeros are equal, and undefined differs from everything. -/
def same (x y : Binary64) : Bool :=
  !x.isUndefined && !y.isUndefined && (x == y || (x.magnitude == 0 && y.magnitude == 0))

/-- Whether the number is this integer. -/
def isInt (x : Binary64) (n : Int) : Bool :=
  match x.dyadic? with
  | some (m, q) => m * pow2 q.toNat == n * pow2 (-q).toNat
  | none => false

/-- Three halves is represented exactly. -/
example : (ofDecimal false 15 (-1)).bits = 0x3FF8000000000000 := by decide +kernel

end Binary64

end ParserAlgebra
