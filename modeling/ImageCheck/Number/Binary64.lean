/-
# Binary floating point with 64 bits

`SPEC_FULL` §3 and §4.5, the numbers of values; `truncate_to_i32`.

The non-negative values of the format, infinity included, stand in increasing
order at the ranks `0, 1, 2, …, 2047 · 2^52`. Rank `k · 2^52 + f` with `f < 2^52`
is `f` units for `k = 0` and `(2^52 + f) · 2^(k-1)` units otherwise, one unit
being `2^-1074`, the least positive value. A sign is kept beside the rank, so
that there are two zeros.

All arithmetic is exact arithmetic on natural numbers followed by one rounding:
to the nearest rank, and from the middle between two to the even one.

* `units`: the value at a rank;
* `nearest`: the rank nearest to a fraction;
* `truncate32`: the whole part, kept within 32 bits.
-/

import ImageCheck.Number.Decimal

namespace ImageCheck

namespace Binary64

/-- `a / b` rounded to the nearest whole number, from the middle to the even one. -/
def divNearest (a b : Nat) : Nat :=
  let q := a / b
  let twice := 2 * (a % b)
  if twice < b ∨ (twice = b ∧ q % 2 = 0) then q else q + 1

/-- The power `2^n`. -/
def twoTo (n : Nat) : Nat := Nat.pow 2 n

/-- The units that make up `1`. -/
def one : Nat := twoTo 1074

/-- The rank of infinity. -/
def topRank : Nat := 2047 * twoTo 52

/-- The value at a rank, in units; past `topRank` as if exponents went on. -/
def units (rank : Nat) : Nat :=
  if rank < twoTo 52 then rank else (twoTo 52 + rank % twoTo 52) * twoTo (rank / twoTo 52 - 1)

/-- The rank nearest to the fraction `num / den`. -/
def nearest (num den : Nat) : Nat :=
  let scaled := num * one
  let shift := (scaled / den).log2 - 52
  min topRank (shift * twoTo 52 + divNearest scaled (den * twoTo shift))

end Binary64

/-- A floating-point number with 64 bits that is not a NaN. -/
structure Binary64 where
  /-- The sign; zero has one too. -/
  negative : Bool
  /-- The place of the magnitude among all magnitudes. -/
  rank : Nat
  /-- No magnitude is above infinity. -/
  rank_le : rank ≤ Binary64.topRank
  deriving DecidableEq

namespace Binary64

/-- The number nearest to `± num / den`. -/
def ofFraction (negative : Bool) (num den : Nat) : Binary64 :=
  ⟨negative, nearest num den, Nat.min_le_left _ _⟩

/-- The number nearest to a whole number. -/
def ofNat (n : Nat) : Binary64 := ofFraction false n 1

/-- The number nearest to a numeral. -/
def ofNumeral (n : Decimal.Numeral) : Binary64 :=
  match n.exponent with
  | .ofNat k => ofFraction n.negative (n.coefficient * Decimal.tenTo k) 1
  | .negSucc k => ofFraction n.negative n.coefficient (Decimal.tenTo (k + 1))

/-- The number that a text stands for, if the text is a numeral. -/
def parse? (cs : List Char) : Option Binary64 :=
  (Decimal.Numeral.parse? cs).map ofNumeral

/-- A number is finite below the rank of infinity. -/
def isFinite (x : Binary64) : Bool := x.rank < topRank

/-- The magnitude of a number, in units. -/
def magnitude (x : Binary64) : Nat := units x.rank

/-- The sum of two numbers without a sign, rounded. -/
def addMagnitudes (x y : Binary64) : Binary64 :=
  ofFraction false (x.magnitude + y.magnitude) one

/-- The product of two numbers without a sign, rounded. -/
def mulMagnitudes (x y : Binary64) : Binary64 :=
  ofFraction false (x.magnitude * y.magnitude) (one * one)

/-- The whole part of a number, toward zero. -/
def truncate (x : Binary64) : Int :=
  let whole : Int := (x.magnitude / one : Nat)
  if x.negative then -whole else whole

/-- The whole part of a number, or the nearest whole number of 32 bits with a sign. -/
def truncate32 (x : Binary64) : Int32 :=
  Int32.ofInt (max (-2147483648) (min 2147483647 x.truncate))

end Binary64
end ImageCheck
