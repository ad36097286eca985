/-
# Numbers written in decimal

`SPEC_FULL` §3 to §4.5; `is_decimal_literal`, `is_unsigned_decimal` and the digits of
`parse_integer_parameter`.

Three grammars over ASCII digits `d`, each inside the next:

```text
unsigned := d+ ('.' d+)?
literal  := [+-]? (d+ ('.' d*)? | '.' d+)
numeral  := [+-]? (d+ ('.' d*)? | '.' d+) ([eE] [+-]? d+)?
```

An error rate is an unsigned decimal, a number of a filter or an area is a
literal, and a numeral is what can be given an exact value: an integer
coefficient times a power of ten.

* `isUnsigned`, `isLiteral`: the two grammars;
* `Numeral.parse?`: the exact value of a numeral;
* `parseBounded?`: a whole number up to a bound.
-/

namespace ImageCheck
namespace Decimal

/-- The power `10^n`. -/
def tenTo (n : Nat) : Nat := Nat.pow 10 n

/-- A text of digits and nothing else; it may be empty. -/
def allDigits (cs : List Char) : Bool :=
  cs.all Char.isDigit

/-- The number that a text of digits stands for. -/
def natOfDigits (cs : List Char) : Nat :=
  Nat.ofDigitChars 10 cs 0

/-- The digits of a number, without leading zeros. -/
def digitsOf (n : Nat) : List Char :=
  Nat.toDigits 10 n

/-- A text without the sign it may begin with. -/
def dropSign : List Char → List Char
  | '-' :: cs => cs
  | '+' :: cs => cs
  | cs => cs

/-- The texts before and after the first point; without a point the second is missing. -/
def splitPoint (cs : List Char) : List Char × Option (List Char) :=
  match cs.dropWhile (· != '.') with
  | [] => (cs, none)
  | _ :: fraction => (cs.takeWhile (· != '.'), some fraction)

/-- Digits with an optional point among them or at either end, and at least one digit. -/
def isMagnitude (cs : List Char) : Bool :=
  match splitPoint cs with
  | (whole, none) => allDigits whole && !whole.isEmpty
  | (whole, some fraction) =>
    allDigits whole && allDigits fraction && !(whole.isEmpty && fraction.isEmpty)

/-- A decimal number with an optional sign. -/
def isLiteral (cs : List Char) : Bool :=
  isMagnitude (dropSign cs)

/-- A decimal number without a sign, whose point has digits on both sides. -/
def isUnsigned (cs : List Char) : Bool :=
  match splitPoint cs with
  | (whole, none) => allDigits whole && !whole.isEmpty
  | (whole, some fraction) =>
    allDigits whole && !whole.isEmpty && (allDigits fraction && !fraction.isEmpty)

/-- A whole number of digits only, if it is at most `bound`. -/
def parseBounded? (bound : Nat) (cs : List Char) : Option Nat :=
  if cs ≠ [] ∧ allDigits cs ∧ natOfDigits cs ≤ bound then some (natOfDigits cs) else none

/-- A whole number of digits only, after an optional plus sign, if it is at most `bound`. -/
def parsePlusBounded? (bound : Nat) : List Char → Option Nat
  | '+' :: cs => parseBounded? bound cs
  | cs => parseBounded? bound cs

/-- The number `± coefficient · 10 ^ exponent`. -/
structure Numeral where
  /-- Whether a minus sign is written. -/
  negative : Bool
  /-- The digits read as one whole number. -/
  coefficient : Nat
  /-- The power of ten. -/
  exponent : Int
  deriving DecidableEq, Repr

namespace Numeral

/-- The power of ten that an exponent part asks for. -/
def parseExponent? : List Char → Option Int
  | '-' :: cs => if cs ≠ [] ∧ allDigits cs then some (-(natOfDigits cs : Int)) else none
  | '+' :: cs => if cs ≠ [] ∧ allDigits cs then some (natOfDigits cs) else none
  | cs => if cs ≠ [] ∧ allDigits cs then some (natOfDigits cs) else none

/-- Whether a character opens the exponent part. -/
def isExponentMark (c : Char) : Bool := c = 'e' || c = 'E'

/-- The value of digits with an optional point, shifted by a power of ten. -/
def ofMagnitude (negative : Bool) (cs : List Char) (shift : Int) : Numeral :=
  match splitPoint cs with
  | (whole, none) => ⟨negative, natOfDigits whole, shift⟩
  | (whole, some fraction) =>
    ⟨negative, natOfDigits (whole ++ fraction), shift - fraction.length⟩

/-- The exact value of a numeral. -/
def parse? (cs : List Char) : Option Numeral :=
  let negative := cs.head? = some '-'
  let unsigned := dropSign cs
  let magnitude := unsigned.takeWhile fun c => !isExponentMark c
  if isMagnitude magnitude then
    match unsigned.dropWhile fun c => !isExponentMark c with
    | [] => some (ofMagnitude negative magnitude 0)
    | _ :: part => (parseExponent? part).map (ofMagnitude negative magnitude)
  else none

end Numeral
end Decimal
end ImageCheck
