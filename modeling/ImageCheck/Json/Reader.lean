/-
# Reading JSON

`SPEC_FULL` §8a, Serialization; the reading side of the derived forms.

The tokens of a text are read from left to right with a stack of the arrays and
objects that are still open. What may come next is one of six things; a text is a
value when its tokens end after a value and nothing is open. The stack is data,
so a text may be nested as deeply as it likes.

* `Json.read?`: the value of a text.
-/

import ImageCheck.Json.Token

namespace ImageCheck
namespace Json

/-- An array or object that is still open, with what it holds so far, last first. -/
inductive Frame where
  | array (items : List Json)
  /-- An object and the name of the field being read. The fields are `none` once a name has been
  met that is no text. -/
  | object (fields : Option (List (String × Json))) (name : Option String)

/-- What may come next. -/
inductive Expected where
  /-- An item, or the end of an array that has just been opened. -/
  | firstItem
  | value
  /-- A name, or the end of an object that has just been opened. -/
  | firstName
  | name
  | colon
  /-- A comma or a closing bracket, after a value. -/
  | next (value : Json)

/-- What is expected, and what is open, innermost first. -/
structure Progress where
  /-- What may come next. -/
  expected : Expected
  /-- The open arrays and objects. -/
  stack : List Frame

/-- The fields of an object with one more; they become `none` if the name is no text. -/
def addField (fields : Option (List (String × Json))) (name : Option String) (value : Json) :
    Option (List (String × Json)) :=
  match fields, name with
  | some fs, some n => some ((n, value) :: fs)
  | _, _ => none

/-- The object of fields, last first; without fields it is none that can be used. -/
def closeObject (fields : Option (List (String × Json))) : Json :=
  match fields with
  | some fs => object fs.reverse
  | none => other

/-- Takes the first token of a value. -/
def startValue (stack : List Frame) : Token → Option Progress
  | .word value => some ⟨.next value, stack⟩
  | .text (some s) => some ⟨.next (string s), stack⟩
  | .text none => some ⟨.next other, stack⟩
  | .openArray => some ⟨.firstItem, .array [] :: stack⟩
  | .openObject => some ⟨.firstName, .object (some []) none :: stack⟩
  | _ => none

/-- Takes the name of a field. -/
def startField (stack : List Frame) (name : Option String) : Option Progress :=
  match stack with
  | .object fields _ :: rest => some ⟨.colon, .object fields name :: rest⟩
  | _ => none

/-- Takes one token. -/
def step (p : Progress) (t : Token) : Option Progress :=
  match p.expected, t, p.stack with
  | .firstItem, .closeArray, _ :: rest => some ⟨.next (array []), rest⟩
  | .firstItem, t, stack => startValue stack t
  | .value, t, stack => startValue stack t
  | .firstName, .closeObject, _ :: rest => some ⟨.next (object []), rest⟩
  | .firstName, .text name, stack => startField stack name
  | .name, .text name, stack => startField stack name
  | .colon, .colon, stack => some ⟨.value, stack⟩
  | .next v, .comma, .array items :: rest => some ⟨.value, .array (v :: items) :: rest⟩
  | .next v, .comma, .object fields name :: rest =>
    some ⟨.name, .object (addField fields name v) none :: rest⟩
  | .next v, .closeArray, .array items :: rest => some ⟨.next (array (v :: items).reverse), rest⟩
  | .next v, .closeObject, .object fields name :: rest =>
    some ⟨.next (closeObject (addField fields name v)), rest⟩
  | _, _, _ => none

/-- The value of a sequence of tokens. -/
def ofTokens? (ts : List Token) : Option Json :=
  match ts.foldlM step ⟨.value, []⟩ with
  | some ⟨.next v, []⟩ => some v
  | _ => none

/-- The value of a text. -/
def read? (text : String) : Option Json :=
  (tokens? text.toList).bind ofTokens?

end Json
end ImageCheck
