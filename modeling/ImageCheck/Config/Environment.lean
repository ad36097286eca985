/-
# Settings from the environment

`SPEC_FULL` §8a, Configuration; `from_env` of `CompilerDefaults` and the environment
that `LoggingPreferences` reads.

Five environment variables set the defaults of every clause and the log. A
variable with a value that makes no sense counts as not set.

| variable | value | otherwise |
| --- | --- | --- |
| `IMGSPEC_DEFAULT_ERROR_RATE` | an error rate | `0%` |
| `IMGSPEC_DEFAULT_TOLERANCE` | a whole number of 32 bits | `25` |
| `IMGSPEC_LOGGING_USE_STRUCTURED` | `true` or `false` | `false` |
| `IMGSPEC_LOGGING_ENABLE_CONSOLE` | `true` or `false` | `false` |
| `IMGSPEC_LOGGING_MIN_LEVEL` | a level | info |
-/

import ImageCheck.Log.Level
import ImageCheck.Spec.Json

namespace ImageCheck

/-- The environment variables that matter. -/
structure Environment where
  /-- The error rate of a clause that gives none. -/
  errorRate : Option String
  /-- The tolerance of a clause that gives none. -/
  tolerance : Option String
  /-- Whether the log writes JSON. -/
  structured : Option String
  /-- Whether the log writes at all. -/
  console : Option String
  /-- The level of the log. -/
  level : Option String

/-- The environment that a look-up by name gives. -/
def Environment.ofLookup (lookup : String → Option String) : Environment where
  errorRate := lookup "IMGSPEC_DEFAULT_ERROR_RATE"
  tolerance := lookup "IMGSPEC_DEFAULT_TOLERANCE"
  structured := lookup "IMGSPEC_LOGGING_USE_STRUCTURED"
  console := lookup "IMGSPEC_LOGGING_ENABLE_CONSOLE"
  level := lookup "IMGSPEC_LOGGING_MIN_LEVEL"

/-- The defaults that an environment sets. -/
def Defaults.ofEnvironment (env : Environment) : Defaults where
  errorRate :=
    (env.errorRate.bind fun s => (ErrorRate.parse s).toOption).getD builtin.errorRate
  tolerance :=
    (env.tolerance.bind fun s =>
      (Decimal.parsePlusBounded? 4294967295 s.toList).map UInt32.ofNat).getD builtin.tolerance

/-- How the log is to be kept. -/
structure Preferences where
  /-- Whether events are written as JSON. -/
  structured : Bool
  /-- Whether events are written at all. -/
  console : Bool
  /-- The most detailed level that is kept. -/
  level : Level
  deriving DecidableEq

namespace Preferences

/-- A truth value in the environment. -/
def flag? (s : String) : Option Bool :=
  if s = "true" then some true else if s = "false" then some false else none

/-- The preferences that an environment sets. -/
def ofEnvironment (env : Environment) : Preferences where
  structured := (env.structured.bind flag?).getD false
  console := (env.console.bind flag?).getD false
  level := (env.level.bind Level.parse?).getD .info

/-- Preferences are a record. -/
def toJson (p : Preferences) : Json :=
  .object
    [("use_structured_logging", .bool p.structured),
     ("enable_console_logging", .bool p.console),
     ("min_log_level", p.level.toJson)]

/-- Reads preferences. -/
def ofJson? (value : Json) : Option Preferences :=
  match value.record? ["use_structured_logging", "enable_console_logging", "min_log_level"] with
  | some [some structured, some console, some level] => do
    return ⟨← structured.bool?, ← console.bool?, ← Level.ofJson? level⟩
  | _ => none

end Preferences
end ImageCheck
