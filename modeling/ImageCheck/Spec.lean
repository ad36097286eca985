/-
# Specifications of an image check

`SPEC_FULL` §3; `ImageCheckSpec`, `FilterOp`, `FilterChain` and `Rect`, and
`render_spec`.

What a clause compiles to: the baseline images, how strict the comparison is, and
three chains of filters: for the baseline, for the screenshot under test (`sample`)
and for the map of differences (`map`).
-/

import ImageCheck.Value.ErrorRate

namespace ImageCheck

/-- The kind of a filter. -/
inductive FilterKind where
  | contrast
  | blur
  | denoise
  | saturation
  | quantinize
  deriving DecidableEq, Repr

namespace FilterKind

/-- The name of a kind of filter. -/
def name : FilterKind → String
  | contrast => "contrast"
  | blur => "blur"
  | denoise => "denoise"
  | saturation => "saturation"
  | quantinize => "quantinize"

/-- Every kind of filter. -/
def all : List FilterKind := [contrast, blur, denoise, saturation, quantinize]

/-- The kind of filter with a name. -/
def ofName? (name : String) : Option FilterKind :=
  all.find? fun kind => kind.name = name

/-- A kind is found by its name. -/
theorem ofName?_name (kind : FilterKind) : ofName? kind.name = some kind := by
  cases kind <;> decide

end FilterKind

/-- A filter with its strength. -/
structure FilterOp where
  /-- What the filter does. -/
  kind : FilterKind
  /-- How strongly. -/
  value : Int32
  deriving DecidableEq

/-- The text of a filter: its name and its strength. -/
def FilterOp.text (f : FilterOp) : String :=
  f.kind.name ++ " " ++ toString f.value.toInt

/-- A rectangle of pixels; the comparison decides what its sign and size mean. -/
structure Rect where
  /-- The left edge. -/
  x : Int32
  /-- The upper edge. -/
  y : Int32
  /-- The extent to the right. -/
  width : Int32
  /-- The extent downward. -/
  height : Int32
  deriving DecidableEq

/-- The text of a rectangle: its four numbers. -/
def Rect.text (r : Rect) : String :=
  toString r.x.toInt ++ " " ++ toString r.y.toInt ++ " " ++
    toString r.width.toInt ++ " " ++ toString r.height.toInt

/-- What a chain of filters is applied to. -/
inductive Chain where
  /-- The baseline image. -/
  | baseline
  /-- The screenshot under test. -/
  | sample
  /-- The map of differences. -/
  | map
  deriving DecidableEq, Repr

namespace Chain

/-- The name of a chain. -/
def name : Chain → String
  | baseline => "original"
  | sample => "sample"
  | map => "map"

/-- Every chain. -/
def all : List Chain := [baseline, sample, map]

theorem mem_all (chain : Chain) : chain ∈ all := by
  cases chain <;> decide

end Chain

/-- How an image is to be checked. While a clause is being compiled the images may still be
missing. -/
structure Spec where
  /-- The baseline images, in order. -/
  images : List String
  /-- The difference that passes. -/
  errorRate : ErrorRate
  /-- The difference of a pixel that passes. -/
  tolerance : UInt32
  /-- How far the images may be shifted against each other. -/
  analyzeOffset : Option UInt32
  /-- Whether images of different size are stretched. -/
  stretch : Bool
  /-- Whether an area outside the image is cropped. -/
  cropIfOutside : Bool
  /-- The part of the image to compare. -/
  area : Option Rect
  /-- The filters for the baseline. -/
  baseline : List FilterOp
  /-- The filters for the screenshot. -/
  sample : List FilterOp
  /-- The filters for the map of differences. -/
  map : List FilterOp
  deriving DecidableEq

namespace Spec

/-- The filters of a chain. -/
def filters (s : Spec) : Chain → List FilterOp
  | .baseline => s.baseline
  | .sample => s.sample
  | .map => s.map

/-- The number of filters in all chains. -/
def totalFilters (s : Spec) : Nat :=
  s.baseline.length + s.sample.length + s.map.length

/-- The specification with the filters of one chain replaced. -/
def setFilters (s : Spec) (fs : List FilterOp) : Chain → Spec
  | .baseline => { s with baseline := fs }
  | .sample => { s with sample := fs }
  | .map => { s with map := fs }

/-- Setting one chain leaves the others as they are. -/
theorem filters_setFilters (s : Spec) (fs : List FilterOp) (c d : Chain) :
    (s.setFilters fs c).filters d = if d = c then fs else s.filters d := by
  cases c <;> cases d <;> rfl

/-- A line that lists the filters of a chain, or nothing for an empty chain. -/
def filterLine (s : Spec) (chain : Chain) : String :=
  let fs := s.filters chain
  if fs.isEmpty then ""
  else chain.name ++ " filters: " ++ String.intercalate ", " (fs.map FilterOp.text) ++ "\n"

/-- A specification as lines of text. -/
def report (s : Spec) : String :=
  String.join (s.images.map fun path => "image: " ++ path ++ "\n") ++
    "error: " ++ s.errorRate.text ++ "\n" ++
    "tolerance: " ++ toString s.tolerance.toNat ++ "\n" ++
    (match s.analyzeOffset with
      | some n => "analyze-offset: " ++ toString n.toNat ++ "\n"
      | none => "") ++
    (match s.area with
      | some r => "area: " ++ r.text ++ "\n"
      | none => "") ++
    (if s.stretch then "stretch\n" else "") ++
    (if s.cropIfOutside then "crop-if-outside\n" else "") ++
    String.join (Chain.all.map s.filterLine)

end Spec
end ImageCheck
