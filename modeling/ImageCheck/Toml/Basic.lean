/-
# TOML tables

`SPEC_FULL` §8a, Configuration; the tables that `from_toml_str` reads.

The tables of a TOML document and the rules by which headers and dotted keys may
extend them. A table remembers how it came to be, because that decides what may
still be added:

| origin | written as | a header may reopen it | a dotted key may extend it |
| --- | --- | --- | --- |
| `header` | `[a]`, an element of `[[a]]` | no | no |
| `implied` | `[a.b]` implies `a` | once | on the way to a deeper table |
| `dotted` | `a.b = 1` implies `a` | no | yes |
| `inline` | `a = ` and braces | no | no |

* `Toml.openTable`, `Toml.openElement`: the two kinds of header;
* `Toml.assign`: a key with a value.
-/

namespace ImageCheck
namespace Toml

/-- How a table came to be. -/
inductive Origin where
  | header
  | implied
  | dotted
  | inline
  deriving DecidableEq, Repr

/-- A value of a document. -/
inductive Item where
  | string (s : String)
  | integer (n : Int)
  /-- A truth value, a number with a fraction, a date or a time. -/
  | scalar
  | array (items : List Item)
  | table (origin : Origin) (fields : List (String × Item))
  /-- The tables of `[[a]]`, in order. -/
  | tables (elements : List (List (String × Item)))

/-- The names of a table with their values. -/
abbrev Fields := List (String × Item)

/-- Replaces the value of a name, or adds the name. -/
def Fields.put (fields : Fields) (name : String) (item : Item) : Fields :=
  if (fields.lookup name).isSome then
    fields.map fun field => if field.1 = name then (name, item) else field
  else fields ++ [(name, item)]

/-- How dotted keys and headers walk down to a table. -/
inductive Route where
  /-- The path of a header: every table may be passed. -/
  | header
  /-- The path of a dotted key: a table with a header of its own may not be passed. -/
  | dotted
  deriving DecidableEq

/-- The origin of a table that a route creates. -/
def Route.creates : Route → Origin
  | header => .implied
  | dotted => .dotted

/-- Whether a route may pass a table. -/
def Route.passes : Route → Origin → Bool
  | _, .inline => false
  | .dotted, .header => false
  | _, _ => true

/-- Changes the table at the end of a path, creating tables that are missing on the way. The way
through a list of tables goes to its last one. -/
def updateAt (route : Route) (change : Origin → Fields → Option Fields) :
    List String → Origin → Fields → Option Fields
  | [], origin, fields => change origin fields
  | name :: path, _, fields =>
    match fields.lookup name with
    | none =>
      (updateAt route change path route.creates []).map fun inner =>
        fields.put name (.table route.creates inner)
    | some (.table origin inner) =>
      if route.passes origin then
        (updateAt route change path origin inner).map fun inner =>
          fields.put name (.table origin inner)
      else none
    | some (.tables elements) =>
      (updateAt route change path .header (elements.getLast?.getD [])).map fun inner =>
        fields.put name (.tables (elements.dropLast ++ [inner]))
    | some _ => none

/-- Opens the table of a header `[path.name]`. -/
def openTable (path : List String) (name : String) (root : Fields) : Option Fields :=
  updateAt .header
    (fun _ fields =>
      match fields.lookup name with
      | none => some (fields.put name (.table .header []))
      | some (.table .implied inner) => some (fields.put name (.table .header inner))
      | some _ => none)
    path .header root

/-- Opens the next table of a header `[[path.name]]`. -/
def openElement (path : List String) (name : String) (root : Fields) : Option Fields :=
  updateAt .header
    (fun _ fields =>
      match fields.lookup name with
      | none => some (fields.put name (.tables [[]]))
      | some (.tables elements) => some (fields.put name (.tables (elements ++ [[]])))
      | some _ => none)
    path .header root

/-- Gives a value to the key `path.name` in a table. The name must be new; a dotted key must not add
to a table that was made in another way. -/
def assignIn (path : List String) (name : String) (item : Item) (origin : Origin)
    (fields : Fields) : Option Fields :=
  updateAt .dotted
    (fun target fields =>
      if (target = .dotted) = (path = []) then none
      else if (fields.lookup name).isSome then none
      else some (fields.put name item))
    path origin fields

/-- Gives a value to the key `path.name` below the header in force. -/
def assign (header path : List String) (name : String) (item : Item) (root : Fields) :
    Option Fields :=
  updateAt .header (assignIn path name item) header .header root

end Toml
end ImageCheck
