/-
# Specifications in JSON

`SPEC_FULL` §8a, Serialization; the derived forms of `ImageCheckSpec`, `FilterOp`,
`Rect` and `ErrorRate`.

Every type of a specification has a JSON form, which `ofJson?` reads and `toJson`
writes: an error rate is its text, a filter an object of its name and its
strength, a rectangle and a specification are records.
-/

import ImageCheck.Compile.Clause
import ImageCheck.Json.Record

namespace ImageCheck

namespace RateUnit

/-- A unit is its name. -/
def toJson (u : RateUnit) : Json := .string u.name

/-- Reads a unit. -/
def ofJson? (value : Json) : Option RateUnit := Json.choice? all name value

end RateUnit

namespace ErrorRate

/-- An error rate is its text. -/
def toJson (r : ErrorRate) : Json := .string r.text

/-- Reads an error rate. -/
def ofJson? (value : Json) : Option ErrorRate :=
  value.string?.bind fun s => (parse s).toOption

end ErrorRate

namespace FilterOp

/-- A filter is a record of its name and its strength. -/
def toJson (f : FilterOp) : Json :=
  .object [("filter", .string f.kind.name), ("value", .integer f.value.toInt)]

/-- Reads the kind of a filter. In a field of an object it is a choice in any of its forms, as an
item of an array its name alone. -/
def kindOfJson? (inArray : Bool) (value : Json) : Option FilterKind :=
  if inArray then value.string?.bind FilterKind.ofName?
  else Json.choice? FilterKind.all FilterKind.name value

/-- Reads a filter. -/
def ofJson? (value : Json) : Option FilterOp :=
  match value.record? ["filter", "value"] with
  | some [some kind, some strength] => do
    let kind ← kindOfJson? value.isArray kind
    let strength ← strength.int32?
    return ⟨kind, strength⟩
  | _ => none

end FilterOp

namespace Rect

/-- A rectangle is a record of its four numbers. -/
def toJson (r : Rect) : Json :=
  .object [("x", .integer r.x.toInt), ("y", .integer r.y.toInt),
    ("width", .integer r.width.toInt), ("height", .integer r.height.toInt)]

/-- Reads a rectangle. -/
def ofJson? (value : Json) : Option Rect :=
  match value.record? ["x", "y", "width", "height"] with
  | some [some x, some y, some width, some height] => do
    return ⟨← x.int32?, ← y.int32?, ← width.int32?, ← height.int32?⟩
  | _ => none

end Rect

namespace Chain

/-- A chain is its name. -/
def toJson (c : Chain) : Json := .string c.name

/-- Reads a chain. -/
def ofJson? (value : Json) : Option Chain := Json.choice? all name value

end Chain

namespace Spec

/-- The names of the fields of a specification. -/
def fieldNames : List String :=
  ["image_paths", "error_rate", "tolerance", "analyze_offset", "stretch", "crop_if_outside",
   "selected_area", "original_filters", "sample_filters", "map_filters"]

/-- A specification is a record. -/
def toJson (s : Spec) : Json :=
  .object
    [("image_paths", .array (s.images.map .string)),
     ("error_rate", s.errorRate.toJson),
     ("tolerance", .integer s.tolerance.toNat),
     ("analyze_offset", Json.ofOption (fun n => .integer n.toNat) s.analyzeOffset),
     ("stretch", .bool s.stretch),
     ("crop_if_outside", .bool s.cropIfOutside),
     ("selected_area", Json.ofOption Rect.toJson s.area),
     ("original_filters", .array (s.baseline.map FilterOp.toJson)),
     ("sample_filters", .array (s.sample.map FilterOp.toJson)),
     ("map_filters", .array (s.map.map FilterOp.toJson))]

/-- Reads a specification. -/
def ofJson? (value : Json) : Option Spec :=
  match value.record? fieldNames with
  | some [some images, some errorRate, some tolerance, analyzeOffset, some stretch,
      some cropIfOutside, area, some baseline, some sample, some map] => do
    let images ← images.list? Json.string?
    let errorRate ← ErrorRate.ofJson? errorRate
    let tolerance ← tolerance.uint32?
    let analyzeOffset ← Json.optional? Json.uint32? analyzeOffset
    let stretch ← stretch.bool?
    let cropIfOutside ← cropIfOutside.bool?
    let area ← Json.optional? Rect.ofJson? area
    let baseline ← baseline.list? FilterOp.ofJson?
    let sample ← sample.list? FilterOp.ofJson?
    let map ← map.list? FilterOp.ofJson?
    return ⟨images, errorRate, tolerance, analyzeOffset, stretch, cropIfOutside, area, baseline,
      sample, map⟩
  | _ => none

end Spec

namespace Defaults

/-- Defaults are a record. -/
def toJson (d : Defaults) : Json :=
  .object [("error_rate", d.errorRate.toJson), ("tolerance", .integer d.tolerance.toNat)]

/-- Reads defaults. -/
def ofJson? (value : Json) : Option Defaults :=
  match value.record? ["error_rate", "tolerance"] with
  | some [some errorRate, some tolerance] => do
    return ⟨← ErrorRate.ofJson? errorRate, ← tolerance.uint32?⟩
  | _ => none

end Defaults
end ImageCheck
