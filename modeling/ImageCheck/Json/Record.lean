/-
# Records in JSON

`SPEC_FULL` §8a, Serialization; the rules that the derived forms of records and
enumerations follow.

A record is an object with known fields, or an array with the values of all its
fields in order. In an object the fields stand in any order, unknown ones are
passed over, and a known one must not stand there twice.

* `Json.record?`: the values of the known fields;
* `Json.choice?`: the member of an enumeration with a name.
-/

import ImageCheck.Json.Basic

namespace ImageCheck
namespace Json

/-- The value of a field, `none` inside if it is missing; nothing if it stands there twice. -/
def field? (fields : List (String × Json)) (name : String) : Option (Option Json) :=
  match fields.filter fun field => field.1 = name with
  | [] => some none
  | [field] => some (some field.2)
  | _ => none

/-- The values of the fields with these names, each `none` if it is missing. -/
def record? (names : List String) : Json → Option (List (Option Json))
  | array items => if items.length = names.length then some (items.map some) else none
  | object fields => names.mapM (field? fields)
  | _ => none

/-- A truth value. -/
def bool? : Json → Option Bool
  | bool b => some b
  | _ => none

/-- A text. -/
def string? : Json → Option String
  | string s => some s
  | _ => none

/-- A whole number from `low` to `high`. -/
def integer? (low high : Int) : Json → Option Int
  | integer n => if low ≤ n ∧ n ≤ high then some n else none
  | _ => none

/-- A whole number from `0` to `high`. -/
def nat? (high : Nat) (value : Json) : Option Nat :=
  (integer? 0 high value).map Int.toNat

/-- A whole number of 32 bits without a sign. -/
def uint32? (value : Json) : Option UInt32 :=
  (nat? 4294967295 value).map UInt32.ofNat

/-- A whole number of 32 bits with a sign. -/
def int32? (value : Json) : Option Int32 :=
  (integer? (-2147483648) 2147483647 value).map Int32.ofInt

/-- Each item of an array. -/
def list? {α : Type} (item? : Json → Option α) : Json → Option (List α)
  | array items => items.mapM item?
  | _ => none

/-- A field that may be missing or `null`. -/
def optional? {α : Type} (value? : Json → Option α) : Option Json → Option (Option α)
  | none => some none
  | some null => some none
  | some value => (value? value).map some

/-- The member of an enumeration with a name. -/
def named? {α : Type} (all : List α) (name : α → String) (s : String) : Option α :=
  all.find? fun a => name a = s

/-- The member of an enumeration: its name, or an object whose one field has that name and holds
`null`. -/
def choice? {α : Type} (all : List α) (name : α → String) : Json → Option α
  | string s => named? all name s
  | object [(s, null)] => named? all name s
  | _ => none

/-- A value or `null`. -/
def ofOption {α : Type} (toJson : α → Json) : Option α → Json
  | none => null
  | some a => toJson a

end Json
end ImageCheck
