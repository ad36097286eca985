/-
# Plain values of TOML

`SPEC_FULL` §8a, Configuration; the plain values in the documents that `from_toml_str`
reads.

Values that are not quoted: whole numbers, numbers with a fraction or an
exponent, truth values, dates and times. An underscore may stand between two
digits of a number.

```text
integer := [+-]? (0 | [1-9] (_? d)*) | 0x h (_? h)* | 0o o (_? o)* | 0b b (_? b)*
float   := [+-]? (0 | [1-9] (_? d)*) (fraction exponent? | exponent) | [+-]? (inf | nan)
moment  := date | time | date [T t space] time (Z | z | [+-] hh:mm)?
```

A whole number has at most 64 bits with a sign; a float must not overflow upward;
a date must exist, and a minute may have 61 seconds.

* `Toml.scalar?`: the item that a word stands for.
-/

import ImageCheck.Number.Binary64
import ImageCheck.Text.Hex
import ImageCheck.Toml.Basic

namespace ImageCheck
namespace Toml

/-- Whether every underscore stands between two characters of the class, and there is at least one
of these. -/
def isGrouped (digit : Char → Bool) : List Char → Bool
  | [] => false
  | [c] => digit c
  | c :: '_' :: rest => digit c && isGrouped digit rest
  | c :: rest => digit c && isGrouped digit rest

/-- A text without its underscores. -/
def ungroup (cs : List Char) : List Char := cs.filter (· != '_')

/-- A whole number in decimal without a sign: no zero before another digit. -/
def isWhole (cs : List Char) : Bool :=
  isGrouped Char.isDigit cs && (cs.head? != some '0' || cs.length = 1)

/-- A whole number that fits into 64 bits with a sign. -/
def boundedInteger? (n : Int) : Option Item :=
  if -9223372036854775808 ≤ n ∧ n ≤ 9223372036854775807 then some (.integer n) else none

/-- A whole number to a base below 37. -/
def based? (base : Nat) (cs : List Char) : Option Item :=
  let value? (c : Char) : Option Nat := (Text.hexValue? c).filter (· < base)
  if isGrouped (fun c => (value? c).isSome) cs then
    boundedInteger? ((ungroup cs).foldl (fun n c => n * base + (value? c).getD 0) 0 : Nat)
  else none

/-- A whole number. -/
def integer? : List Char → Option Item
  | '0' :: 'x' :: cs => based? 16 cs
  | '0' :: 'o' :: cs => based? 8 cs
  | '0' :: 'b' :: cs => based? 2 cs
  | '-' :: cs =>
    if isWhole cs then boundedInteger? (-(Decimal.natOfDigits (ungroup cs) : Int)) else none
  | '+' :: cs => if isWhole cs then boundedInteger? (Decimal.natOfDigits (ungroup cs)) else none
  | cs => if isWhole cs then boundedInteger? (Decimal.natOfDigits (ungroup cs)) else none

/-- Whether a numeral rounds to an infinite number without a minus sign. Far from the bound the
number of digits decides. -/
def overflowsUpward (n : Decimal.Numeral) : Bool :=
  let size : Int := (Decimal.digitsOf n.coefficient).length + n.exponent
  if n.negative || n.coefficient = 0 || size < 300 then false
  else if 320 < size then true
  else !(Binary64.ofNumeral n).isFinite

/-- An exponent part without its mark. -/
def isExponent (cs : List Char) : Bool := isGrouped Char.isDigit (Decimal.dropSign cs)

/-- A mantissa with an optional exponent part after it. -/
def isFloat (cs : List Char) : Bool :=
  let mantissa := cs.takeWhile fun c => !Decimal.Numeral.isExponentMark c
  let validExponent :=
    match cs.dropWhile fun c => !Decimal.Numeral.isExponentMark c with
    | [] => true
    | _ :: part => isExponent part
  match Decimal.splitPoint mantissa with
  | (whole, some fraction) => isWhole whole && isGrouped Char.isDigit fraction && validExponent
  | (whole, none) => isWhole whole && mantissa.length < cs.length && validExponent

/-- A number with a fraction or an exponent, or one of the special numbers. -/
def float? (cs : List Char) : Option Item :=
  let unsigned := Decimal.dropSign cs
  if unsigned = ['i', 'n', 'f'] ∨ unsigned = ['n', 'a', 'n'] then some .scalar
  else if isFloat unsigned then
    match Decimal.Numeral.parse? (ungroup cs) with
    | some n => if overflowsUpward n then none else some .scalar
    | none => none
  else none

/-- The number of exactly so many digits at the start of a text, if it lies within bounds. -/
def digitField? (count low high : Nat) (cs : List Char) : Option (Nat × List Char) :=
  let field := cs.take count
  let n := Decimal.natOfDigits field
  if field.length = count ∧ Decimal.allDigits field ∧ low ≤ n ∧ n ≤ high then
    some (n, cs.drop count)
  else none

/-- The text after a character. -/
def after? (c : Char) : List Char → Option (List Char)
  | [] => none
  | d :: rest => if d = c then some rest else none

/-- The days of a month. -/
def daysIn (year month : Nat) : Nat :=
  if month = 2 then
    if year % 4 = 0 ∧ (year % 100 ≠ 0 ∨ year % 400 = 0) then 29 else 28
  else if month = 4 ∨ month = 6 ∨ month = 9 ∨ month = 11 then 30
  else 31

/-- What follows a date. -/
def date? (cs : List Char) : Option (List Char) := do
  let (year, cs) ← digitField? 4 0 9999 cs
  let cs ← after? '-' cs
  let (month, cs) ← digitField? 2 1 12 cs
  let cs ← after? '-' cs
  let (_, cs) ← digitField? 2 1 (daysIn year month) cs
  return cs

/-- What follows a fraction of a second, if there is one. -/
def secondFraction? : List Char → Option (List Char)
  | '.' :: rest =>
    if (rest.takeWhile Char.isDigit).isEmpty then none else some (rest.dropWhile Char.isDigit)
  | cs => some cs

/-- What follows a time of day. -/
def time? (cs : List Char) : Option (List Char) := do
  let (_, cs) ← digitField? 2 0 23 cs
  let cs ← after? ':' cs
  let (_, cs) ← digitField? 2 0 59 cs
  let cs ← after? ':' cs
  let (_, cs) ← digitField? 2 0 60 cs
  secondFraction? cs

/-- What follows the distance from universal time, if it is given. -/
def offset? : List Char → Option (List Char)
  | 'Z' :: rest => some rest
  | 'z' :: rest => some rest
  | sign :: rest =>
    if sign = '+' ∨ sign = '-' then do
      let (_, cs) ← digitField? 2 0 23 rest
      let cs ← after? ':' cs
      let (_, cs) ← digitField? 2 0 59 cs
      return cs
    else some (sign :: rest)
  | [] => some []

/-- Whether a text is a date, a time of day, or both. -/
def isMoment (cs : List Char) : Bool :=
  match date? cs with
  | some [] => true
  | some (mark :: rest) =>
    (mark = 'T' || mark = 't' || mark = ' ') && ((time? rest).bind offset?) = some []
  | none => time? cs = some []

/-- The item that a word stands for. -/
def scalar? (cs : List Char) : Option Item :=
  if cs = ['t', 'r', 'u', 'e'] ∨ cs = ['f', 'a', 'l', 's', 'e'] then some .scalar
  else if isMoment cs then some .scalar
  else (float? cs).or (integer? cs)

end Toml
end ImageCheck
