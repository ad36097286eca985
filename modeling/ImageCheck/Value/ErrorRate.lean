/-
# Error rates

`SPEC_FULL` §3; `ErrorRate`, `ErrorRateUnit` and `ErrorRateError`, with `from_str` and
the text of a rate.

How far two images may differ: `2.5%` of all pixels, or `300px`. Blanks may stand
around the rate and before its unit. The number is an unsigned decimal; one that
is too large for the format is infinite, and an infinite rate has no text that
reads back.

* `ErrorRate.parse`: the rate that a text stands for, or one of three causes of failure;
* `ErrorRate.text`: the shortest text of a rate.
-/

import ImageCheck.Code
import ImageCheck.Number.Shortest
import ImageCheck.Text.Blank

namespace ImageCheck

/-- What an error rate counts. -/
inductive RateUnit where
  /-- A share of all pixels. -/
  | percent
  /-- A number of pixels. -/
  | pixels
  deriving DecidableEq, Repr

namespace RateUnit

/-- The mark behind the number of a rate. -/
def suffix : RateUnit → String
  | percent => "%"
  | pixels => "px"

/-- The name of a unit. -/
def name : RateUnit → String
  | percent => "percent"
  | pixels => "pixels"

/-- Every unit. -/
def all : List RateUnit := [percent, pixels]

end RateUnit

/-- The difference between two images that a check lets pass. -/
structure ErrorRate where
  /-- The number of the rate. -/
  value : Binary64
  /-- What the number counts. -/
  unit : RateUnit
  deriving DecidableEq

/-- Why a text is no error rate; the text is kept without outer blanks. -/
inductive ErrorRateError where
  /-- The text is blank. -/
  | empty
  /-- The text does not end with a unit. -/
  | missingUnit (text : String)
  /-- What stands before the unit is no unsigned decimal. -/
  | invalidValue (text : String)
  deriving DecidableEq, Repr

namespace ErrorRateError

/-- The wording of a failure. -/
def message : ErrorRateError → String
  | empty => "Error rate is empty"
  | missingUnit text => "Error rate '" ++ text ++ "' must end with '%' or 'px'"
  | invalidValue text => "Error rate '" ++ text ++ "' is not a non-negative decimal number"

/-- The code of a failure. -/
def code (_ : ErrorRateError) : Code := .invalidErrorRate

end ErrorRateError

namespace ErrorRate

/-- The rate of no difference at all. -/
def zero : ErrorRate := ⟨.ofNat 0, .percent⟩

/-- The unit at the end of a text and the text before it. -/
def splitUnit? (cs : List Char) : Option (List Char × RateUnit) :=
  match cs.reverse with
  | 'x' :: 'p' :: before => some (before.reverse, .pixels)
  | '%' :: before => some (before.reverse, .percent)
  | _ => none

/-- The rate that a text stands for. -/
def parse (text : String) : Except ErrorRateError ErrorRate :=
  let trimmed := Text.trim text.toList
  if trimmed = [] then .error .empty
  else
    match splitUnit? trimmed with
    | none => .error (.missingUnit (String.ofList trimmed))
    | some (before, unit) =>
      let number := Text.trimEnd before
      if Decimal.isUnsigned number then
        match Binary64.parse? number with
        | some value => .ok ⟨value, unit⟩
        | none => .error (.invalidValue (String.ofList trimmed))
      else .error (.invalidValue (String.ofList trimmed))

/-- The text of a rate: its number and its unit. -/
def text (r : ErrorRate) : String :=
  r.value.text ++ r.unit.suffix

end ErrorRate
end ImageCheck
