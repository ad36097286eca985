/-
# Events of the log

`SPEC_FULL` §8a, Logging; `LogEvent`, with `format` and `format_json`.

An event has a level, a code, a message, perhaps a span and some context. It is
written as a line of text

```text
[LEVEL] CODE - message at columns a-b
```

or as a JSON object on one line, with the names of all fields in order.

* `Event.line`, `Event.jsonLine`: the two forms.
-/

import ImageCheck.Code
import ImageCheck.Json.Writer
import ImageCheck.Log.Context
import ImageCheck.Log.Level
import ImageCheck.Text.Span

namespace ImageCheck

/-- Something that the log tells about. -/
structure Event where
  /-- How much it matters. -/
  level : Level
  /-- What kind of event it is. -/
  code : Code
  /-- What happened. -/
  message : String
  /-- The part of a text that the event is about. -/
  span : Option Span
  /-- More about the event. -/
  context : Context

namespace Event

/-- An event without span and context. -/
def plain (level : Level) (code : Code) (message : String) : Event :=
  ⟨level, code, message, none, .empty⟩

/-- A failure. -/
def error (code : Code) (message : String) : Event := plain .error code message

/-- A success. -/
def success (code : Code) (message : String) : Event := plain .info code message

/-- A warning. -/
def warning (message : String) : Event := plain .warning .warning message

/-- A notice. -/
def info (message : String) : Event := plain .info .info message

/-- A detail for debugging. -/
def debug (message : String) : Event := plain .debug .debug message

/-- The event with a span. -/
def withSpan (e : Event) (span : Span) : Event := { e with span := some span }

/-- The event with one more name in its context. -/
def withContext (e : Event) (name text : String) : Event :=
  { e with context := e.context.set name text }

/-- The event as a line of text. -/
def line (e : Event) : String :=
  "[" ++ e.level.tag ++ "] " ++ e.code.text ++ " - " ++ e.message ++
    match e.span with
    | some span => " at " ++ span.describe
    | none => ""

/-- What the catalogue says about the code of a failure. -/
def metadata (e : Event) : Json :=
  .object
    [("description", .string e.code.description),
     ("recommended_action", .string e.code.action),
     ("recoverable", .bool e.code.recoverable),
     ("requires_halt", .bool e.code.requiresHalt)]

/-- The columns of a span. -/
def columns (span : Span) : Json :=
  .object [("end_column", .integer span.stop.column), ("start_column", .integer span.start.column)]

/-- The context as an object. -/
def contextJson (c : Context) : Json :=
  .object (c.entries.map fun (name, text) => (name, .string text))

/-- The event as a JSON object, at a time in seconds; a time before the epoch counts as the
epoch. -/
def toJson (seconds : Int) (e : Event) : Json :=
  .object <|
    [("category", .string e.code.category), ("code", .string e.code.text)] ++
    (if e.context.entries.isEmpty then []
      else [("context", contextJson e.context)]) ++
    (if e.level = .error then [("error_metadata", e.metadata)] else []) ++
    [("level", .string e.level.tag), ("message", .string e.message),
     ("severity", .string e.code.severity.name)] ++
    (match e.span with
      | some span => [("span", columns span)]
      | none => []) ++
    [("timestamp", .integer (max 0 seconds))]

/-- The event as a JSON object on one line, at a time in seconds. -/
def jsonLine (seconds : Int) (e : Event) : String :=
  String.ofList (e.toJson seconds).compact

end Event
end ImageCheck
