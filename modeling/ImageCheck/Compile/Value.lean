/-
# Values of parameters

`SPEC_FULL` §4.2 to §4.4; `parse_image_filter`, `parse_rect` and
`parse_integer_parameter`.

What the value of a parameter stands for: a whole number, a rectangle, a filter.

* `Value.integer`: digits only, at most `2147483647`;
* `Value.rect`: four numbers, each without its fraction;
* `Value.filter`: a name and a number. The name is looked up only after the number has been
  read, and before anything that follows it is refused.
-/

import ImageCheck.Compile.Error
import ImageCheck.Spec

namespace ImageCheck
namespace Value

/-- The largest whole number that a parameter takes. -/
def maxInteger : Nat := 2147483647

/-- The whole number that the value of the parameter `field` stands for. -/
def integer (field value : String) : Except CompileError UInt32 :=
  match Decimal.parseBounded? maxInteger value.toList with
  | some n => .ok (UInt32.ofNat n)
  | none => .error (.invalidInteger field value)

/-- The rectangle of four numbers. -/
def rect (value : String) : Except CompileError Rect :=
  match readNumbers 4 value with
  | .error e => .error (.read e)
  | .ok xs => .ok ⟨xs[0].truncate32, xs[1].truncate32, xs[2].truncate32, xs[3].truncate32⟩

/-- The filter of a name and a number. -/
def filter (value : String) : Except CompileError FilterOp :=
  match (Cursor.ofList value.toList).word with
  | (.error e, _) => .error (.read e)
  | (.ok name, c) =>
    match c.number with
    | (.error e, _) => .error (.read e)
    | (.ok x, c) =>
      match FilterKind.ofName? name with
      | none => .error (.unknownFilter name)
      | some kind =>
        match c.finish.1 with
        | .error e => .error (.read e)
        | .ok () => .ok ⟨kind, x.truncate32⟩

end Value
end ImageCheck
