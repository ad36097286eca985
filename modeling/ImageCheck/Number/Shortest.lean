/-
# Floating-point numbers as decimal text

`SPEC_FULL` §3, where the text of an error rate reads back; the texts of numbers, plain
and with so many places.

Two ways to write a number. The shortest text has the fewest digits that read
back as the same number, and of those the ones nearest to it (from the middle
upward), always without an exponent: `0.1`, `3`, `100000000000000000000000`. The
fixed text has a given number of places, rounded from the exact value, from the
middle to the even digit.

The decimals that read back as a rank are those between the two midpoints to its
neighbours; the midpoints themselves belong to it exactly when the rank is even.
Every comparison is made in natural numbers, with lengths in units of
`10^-340`: below any digit that a least positive number needs.

* `shortest`: coefficient and exponent of the shortest decimal;
* `Binary64.text`, `Binary64.fixed`: the two texts.
-/

import ImageCheck.Number.Binary64

namespace ImageCheck
namespace Decimal

/-- Places after the point that are enough for 17 digits of the least positive number. -/
def finestPlaces : Nat := 340

/-- The most digits that a shortest decimal has. -/
def mostDigits : Nat := 17

/-- Whether the decimal `n · 10^-finestPlaces` reads back as the number at a positive rank. -/
def readsBack (rank n : Nat) : Bool :=
  let value := 2 * n * Binary64.one
  let low := (Binary64.units (rank - 1) + Binary64.units rank) * tenTo finestPlaces
  let high := (Binary64.units rank + Binary64.units (rank + 1)) * tenTo finestPlaces
  if rank % 2 = 0 then low ≤ value && value ≤ high else low < value && value < high

/-- The multiple of `10^drop` (in units of `10^-finestPlaces`) that reads back as the number at a
rank and is nearest to it, divided by `10^drop`; only the two neighbours of the number can be. -/
def candidate? (rank drop : Nat) : Option Nat :=
  let grid := tenTo drop
  let scaled := Binary64.units rank * tenTo finestPlaces
  let below := scaled / (Binary64.one * grid)
  let above := below + 1
  match readsBack rank (below * grid), readsBack rank (above * grid) with
  | true, false => some below
  | false, true => some above
  | true, true =>
    if (below + above) * grid * Binary64.one ≤ 2 * scaled then some above else some below
  | false, false => none

/-- The shortest decimal of the number at a positive rank: a coefficient, and how many digits of the
finest grid it leaves out. -/
def shortest (rank : Nat) : Nat × Nat :=
  let finest := Binary64.units rank * tenTo finestPlaces / Binary64.one
  let size := (digitsOf finest).length
  let drops := (List.range mostDigits).map fun k => size - 1 - k
  (drops.findSome? fun drop => (candidate? rank drop).map (·, drop)).getD (finest, 0)

/-- A text without the zeros at its end. -/
def dropLastZeros (cs : List Char) : List Char :=
  (cs.reverse.dropWhile (· = '0')).reverse

/-- The digits of `n`, with zeros before them up to a length. -/
def padded (length n : Nat) : List Char :=
  let cs := digitsOf n
  List.replicate (length - cs.length) '0' ++ cs

/-- The decimal `n · 10^-places` without an exponent and without zeros at the end of its
fraction. -/
def positional (n places : Nat) : List Char :=
  let whole := digitsOf (n / tenTo places)
  let fraction := if places = 0 then [] else dropLastZeros (padded places (n % tenTo places))
  if fraction = [] then whole else whole ++ '.' :: fraction

/-- The text of a magnitude: `inf` for infinity, else its shortest decimal. -/
def magnitudeText (rank : Nat) : List Char :=
  if rank = 0 then ['0']
  else if rank < Binary64.topRank then
    let (n, drop) := shortest rank
    if finestPlaces ≤ drop then digitsOf (n * tenTo (drop - finestPlaces))
    else positional n (finestPlaces - drop)
  else ['i', 'n', 'f']

end Decimal

namespace Binary64

/-- The shortest text that reads back as the number. -/
def text (x : Binary64) : String :=
  String.ofList ((if x.negative then ['-'] else []) ++ Decimal.magnitudeText x.rank)

/-- The magnitude of a number with a fixed, positive number of places. -/
def fixed (places : Nat) (x : Binary64) : String :=
  let n := divNearest (x.magnitude * Decimal.tenTo places) one
  let whole := n / Decimal.tenTo places
  let fraction := n % Decimal.tenTo places
  String.ofList (Decimal.digitsOf whole ++ '.' :: Decimal.padded places fraction)

end Binary64
end ImageCheck
