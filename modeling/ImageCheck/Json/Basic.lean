/-
# JSON values

`SPEC_FULL` §8a, Serialization; the values that are written by `format_json` and for
`--json`.

A JSON value as this library writes and reads it. Numbers are whole numbers; the
fields of an object keep the order in which they are written.

* `Json.sortKeys`: the same value with the fields of every object in the order of their names;
* `Json.get?`: the field of an object.
-/

namespace ImageCheck

/-- A JSON value. -/
inductive Json where
  | null
  | bool (b : Bool)
  | integer (n : Int)
  | string (s : String)
  | array (items : List Json)
  | object (fields : List (String × Json))
  /-- A value that is well-formed but holds something else: a number with a fraction or an
  exponent, the number `-0`, or a text with half of a surrogate pair. -/
  | other

namespace Json

/-- The value of the first field with a name. -/
def get? (name : String) : Json → Option Json
  | object fields => fields.lookup name
  | _ => none

/-- Whether a value is an array. -/
def isArray : Json → Bool
  | array _ => true
  | _ => false

/-- Puts a field before the first one whose name is not smaller. -/
def insertField (name : String) (value : Json) : List (String × Json) → List (String × Json)
  | [] => [(name, value)]
  | (n, v) :: rest =>
    if n < name then (n, v) :: insertField name value rest else (name, value) :: (n, v) :: rest

mutual

/-- The same value with the fields of every object in the order of their names. -/
def sortKeys : Json → Json
  | array items => array (sortItems items)
  | object fields => object (sortFields fields)
  | value => value

/-- The items of an array, each with its fields in order. -/
def sortItems : List Json → List Json
  | [] => []
  | item :: rest => sortKeys item :: sortItems rest

/-- The fields of an object, in order. -/
def sortFields : List (String × Json) → List (String × Json)
  | [] => []
  | (name, value) :: rest => insertField name (sortKeys value) (sortFields rest)

end

end Json
end ImageCheck
