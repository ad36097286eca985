/-
# Positions and parameters in JSON

`SPEC_FULL` §8a, Serialization; the derived forms of `Position`, `Span` and `Parameter`.

A position is a record of its offset (up to 64 bits) and its column (up to 32
bits); spans and parameters are records that hold positions.
-/

import ImageCheck.Clause.Parameter
import ImageCheck.Json.Record

namespace ImageCheck

namespace Position

/-- A position is a record. -/
def toJson (p : Position) : Json :=
  .object [("offset", .integer p.offset), ("column", .integer p.column)]

/-- Reads a position. -/
def ofJson? (value : Json) : Option Position :=
  match value.record? ["offset", "column"] with
  | some [some offset, some column] => do
    return ⟨← offset.nat? 18446744073709551615, ← column.nat? 4294967295⟩
  | _ => none

end Position

namespace Span

/-- A span is a record of its ends. -/
def toJson (s : Span) : Json :=
  .object [("start", s.start.toJson), ("end", s.stop.toJson)]

/-- Reads a span. -/
def ofJson? (value : Json) : Option Span :=
  match value.record? ["start", "end"] with
  | some [some start, some stop] => do
    return ⟨← Position.ofJson? start, ← Position.ofJson? stop⟩
  | _ => none

end Span

namespace Parameter

/-- A parameter is a record. -/
def toJson (p : Parameter) : Json :=
  .object [("key", .string p.key), ("value", .string p.value), ("position", p.position.toJson)]

/-- Reads a parameter. -/
def ofJson? (value : Json) : Option Parameter :=
  match value.record? ["key", "value", "position"] with
  | some [some key, some text, some position] => do
    return ⟨← key.string?, ← text.string?, ← Position.ofJson? position⟩
  | _ => none

end Parameter
end ImageCheck
