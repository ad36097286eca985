/-
# Reports to the log

`SPEC_FULL` §8a, Logging; the constructors of `LogEvent`, `clamp_message` with its limit
`MAX_LOG_MESSAGE_LENGTH`, `attach_context`, and `log_error` to `log_debug`.

What the program says to the log before the log knows which clause it is about.
The message of a failure and every text of a context are cut to a number of
bytes, at the end of a character; then the clause being compiled is added.

* `clamp`: the longest beginning of a text within the bound;
* `Report.event`: the event that a report becomes.
-/

import ImageCheck.Log.Event

namespace ImageCheck

/-- The most bytes that the log keeps of a text. -/
def maxMessageBytes : Nat := 10000

/-- The longest beginning of a text that fits into so many bytes. -/
def Text.takeBytes : Nat → List Char → List Char
  | _, [] => []
  | budget, c :: cs =>
    if c.utf8Size ≤ budget then c :: Text.takeBytes (budget - c.utf8Size) cs else []

/-- The longest beginning of a text that the log keeps. -/
def clamp (text : String) : String :=
  String.ofList (Text.takeBytes maxMessageBytes text.toList)

/-- The clause that is being compiled. -/
structure Subject where
  /-- Where the clause comes from. -/
  label : String
  /-- The place of the clause in its batch. -/
  index : Nat
  deriving DecidableEq

/-- What the program tells the log. -/
structure Report where
  /-- How much it matters. -/
  level : Level
  /-- What kind of event it is. -/
  code : Code
  /-- What happened. -/
  message : String
  /-- The part of a text that it is about. -/
  span : Option Span
  /-- Names with texts; a later text of a name replaces an earlier one. -/
  fields : List (String × String)

namespace Report

/-- A failure. -/
def error (code : Code) (message : String) (span : Option Span) (fields : List (String × String)) :
    Report :=
  ⟨.error, code, message, span, fields⟩

/-- A success. -/
def success (code : Code) (message : String) (fields : List (String × String)) : Report :=
  ⟨.info, code, message, none, fields⟩

/-- A warning. -/
def warning (message : String) (fields : List (String × String)) : Report :=
  ⟨.warning, .warning, message, none, fields⟩

/-- A notice. -/
def info (message : String) (fields : List (String × String)) : Report :=
  ⟨.info, .info, message, none, fields⟩

/-- A detail for debugging. -/
def debug (message : String) (fields : List (String × String)) : Report :=
  ⟨.debug, .debug, message, none, fields⟩

/-- The context of a report about a clause. -/
def context (subject : Option Subject) (fields : List (String × String)) : Context :=
  let own := fields.foldl (fun c field => c.set field.1 (clamp field.2)) Context.empty
  match subject with
  | none => own
  | some s => (own.set "clause" s.label).set "clause_id" (toString s.index)

/-- The event that a report about a clause becomes. -/
def event (subject : Option Subject) (r : Report) : Event where
  level := r.level
  code := r.code
  message := if r.level = .error then clamp r.message else r.message
  span := r.span
  context := context subject r.fields

end Report
end ImageCheck
