/-
# Parameters of a clause

`SPEC_FULL` §4.6; `Parameter`, `SplitError` and the limit `MAX_CLAUSE_LENGTH`.

A clause is a sequence of parameters `name: value` between commas. A parameter
keeps the place where its name begins, and a clause that cannot be split fails
for one of four causes.
-/

import ImageCheck.Code
import ImageCheck.Text.Span

namespace ImageCheck

/-- One `name: value` of a clause; a flag has the empty value. -/
structure Parameter where
  /-- The name, as written. -/
  key : String
  /-- The value, without quotes. -/
  value : String
  /-- Where the name begins in the clause. -/
  position : Position
  deriving DecidableEq, Repr

/-- The most bytes a clause may have. -/
def maxClauseBytes : Nat := 65536

/-- Why a clause cannot be split into parameters. -/
inductive SplitError where
  /-- The clause has more than `maxClauseBytes` bytes. -/
  | clauseTooLong (length : Nat)
  /-- A colon stands where a name should begin. -/
  | emptyKey (position : Position)
  /-- A quote is opened and never closed. -/
  | unterminatedQuote (position : Position)
  /-- Something other than a comma follows a quoted value. -/
  | unexpectedAfterQuote (text : String) (position : Position)
  deriving DecidableEq, Repr

namespace SplitError

/-- The wording of a failure. -/
def message : SplitError → String
  | clauseTooLong length =>
    "Clause too long: " ++ toString length ++ " bytes (max " ++ toString maxClauseBytes ++ ")"
  | emptyKey position => "Missing parameter name before ':' at " ++ position.describe
  | unterminatedQuote position =>
    "Unterminated quoted value starting at " ++ position.describe
  | unexpectedAfterQuote text position =>
    "Unexpected text '" ++ text ++ "' after quoted value at " ++ position.describe

/-- The code of a failure. -/
def code : SplitError → Code
  | clauseTooLong _ => .clauseTooLong
  | emptyKey _ => .emptyKey
  | unterminatedQuote _ => .unterminatedQuote
  | unexpectedAfterQuote _ _ => .unexpectedAfterQuote

/-- The part of the clause that a failure is about, where it has one. -/
def span? : SplitError → Option Span
  | clauseTooLong _ => none
  | emptyKey position => some (.point position)
  | unterminatedQuote position => some (.point position)
  | unexpectedAfterQuote text position => some (.covering position text.toList)

end SplitError
end ImageCheck
