/-
# Levels of the log

`SPEC_FULL` §8a, Logging; `LogLevel`, `parse_log_level` and the comparison in
`should_log`.

Four levels, from the gravest to the most detailed. A log that is set to a level
keeps the events of that level and of every graver one.
-/

import ImageCheck.Json.Record

namespace ImageCheck

/-- How much an event matters. -/
inductive Level where
  | error
  | warning
  | info
  | debug
  deriving DecidableEq, Repr

namespace Level

/-- The place of a level, from the gravest on. -/
def rank : Level → Nat
  | error => 0
  | warning => 1
  | info => 2
  | debug => 3

/-- The mark of a level on a line of the log. -/
def tag : Level → String
  | error => "ERROR"
  | warning => "WARN"
  | info => "INFO"
  | debug => "DEBUG"

/-- The name of a level in stored preferences. -/
def name : Level → String
  | error => "Error"
  | warning => "Warning"
  | info => "Info"
  | debug => "Debug"

/-- Every level. -/
def all : List Level := [error, warning, info, debug]

/-- Whether a log set to `threshold` keeps events of a level. -/
def isKeptBy (level threshold : Level) : Bool :=
  level.rank ≤ threshold.rank

/-- The texts that name a level, in lower case. -/
def spellings : Level → List String
  | error => ["error", "0"]
  | warning => ["warning", "warn", "1"]
  | info => ["info", "2"]
  | debug => ["debug", "3"]

/-- The level that a text names, in upper or lower case. Folding ASCII letters is enough: no other
character has a lower case that occurs in a spelling. -/
def parse? (text : String) : Option Level :=
  let folded := String.ofList (text.toList.map Char.toLower)
  all.find? fun level => folded ∈ level.spellings

/-- A level is its name. -/
def toJson (level : Level) : Json := .string level.name

/-- Reads a level. -/
def ofJson? (value : Json) : Option Level := Json.choice? all name value

end Level
end ImageCheck
