/-
# Why a clause does not compile

`SPEC_FULL` §7; `CompileError` with `error_code` and `span`, and `render_compile_error`.

The causes of failure, from the splitting of the clause to the limits on the
result. Each has a wording and a code; some have a place, in the clause for a
failure to split and in the value for a failure to read.
-/

import ImageCheck.Clause.Parameter
import ImageCheck.Value.ErrorRate
import ImageCheck.Value.Token

namespace ImageCheck

/-- What a clause may not have too many of. -/
inductive Limit where
  /-- The parameters of a clause. -/
  | parameters
  /-- The filters of one chain. -/
  | filtersPerChain
  deriving DecidableEq, Repr

namespace Limit

/-- The wording for what is limited. -/
def subject : Limit → String
  | parameters => "parameters"
  | filtersPerChain => "filters per chain"

/-- The most that is allowed. -/
def bound : Limit → Nat
  | parameters => 1024
  | filtersPerChain => 256

end Limit

/-- Why a clause does not compile. -/
inductive CompileError where
  /-- A parameter has an unknown name. -/
  | unknownParameter (key : String)
  /-- A filter has an unknown name. -/
  | unknownFilter (name : String)
  /-- The value of a parameter is no whole number of at most 31 bits. -/
  | invalidInteger (field value : String)
  /-- No parameter names an image. -/
  | noImages
  /-- There is too much of something. -/
  | limitExceeded (limit : Limit)
  /-- The tokens of a value are not the ones expected. -/
  | read (cause : ReadError)
  /-- A value is no error rate. -/
  | errorRate (cause : ErrorRateError)
  /-- The clause cannot be split. -/
  | split (cause : SplitError)
  deriving DecidableEq, Repr

namespace CompileError

/-- The wording of a failure. -/
def message : CompileError → String
  | unknownParameter key => "Unknown image check parameter '" ++ key ++ "'"
  | unknownFilter name => "Unknown image filter '" ++ name ++ "'"
  | invalidInteger field value =>
    "Parameter '" ++ field ++ "' must be a non-negative integer, got '" ++ value ++ "'"
  | noImages => "No images defined: at least one 'file' parameter is required"
  | limitExceeded limit =>
    "Too many " ++ limit.subject ++ " in one clause (max " ++ toString limit.bound ++ ")"
  | read cause => cause.message
  | errorRate cause => cause.message
  | split cause => cause.message

/-- The code of a failure. -/
def code : CompileError → Code
  | unknownParameter _ => .unknownParameter
  | unknownFilter _ => .unknownFilter
  | invalidInteger _ _ => .invalidInteger
  | noImages => .noImages
  | limitExceeded _ => .limitExceeded
  | read cause => cause.code
  | errorRate cause => cause.code
  | split cause => cause.code

/-- The part of the text that a failure is about: of the clause for a failure to split, of the value
for a failure to read. -/
def span? : CompileError → Option Span
  | read cause => some cause.span
  | split cause => cause.span?
  | _ => none

/-- A failure as text for a terminal. A failure to split shows the clause with carets below the
place, as far as it has one. -/
def report (clause : String) (e : CompileError) : String :=
  let message := "[" ++ e.code.text ++ "] " ++ e.message
  let plain := "error: " ++ message ++ "\n"
  match e with
  | split cause =>
    match cause.span? with
    | some span => span.excerpt clause message
    | none => plain
  | _ => plain

end CompileError
end ImageCheck
