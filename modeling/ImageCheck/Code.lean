/-
# Codes of failures and events

`SPEC_FULL` §8a, Logging; `Code`, `Severity`, `ErrorMetadata` and the registry behind
`get_error_metadata`, `get_severity`, `is_recoverable` and `requires_halt`.

Every failure and every log event carries a short code. A code of the catalogue
stands for a kind of failure, with a category, a severity and advice; any other
code, such as those of successful events, is unknown to the catalogue.

| codes | category | about |
| --- | --- | --- |
| `E020` … `E023` | Lexical | the tokens of a value |
| `E040` … `E043` | Syntax | the parameters of a clause |
| `E060` … `E065` | Clause | the meaning of a clause |
| `E090` … `E092` | Batch | a whole batch |

Only a critical failure asks for a halt.
-/

namespace ImageCheck

/-- How grave a kind of failure is. -/
inductive Severity where
  | critical
  | high
  | medium
  | low
  deriving DecidableEq, Repr

/-- The written name of a severity. -/
def Severity.name : Severity → String
  | critical => "Critical"
  | high => "High"
  | medium => "Medium"
  | low => "Low"

/-- A short text that names a kind of failure or event. -/
structure Code where
  /-- The text of the code. -/
  text : String
  deriving DecidableEq, Repr

namespace Code

/-- A token that should be a number is none. -/
def invalidNumber : Code := ⟨"E020"⟩

/-- A value ended too early. -/
def unexpectedEnd : Code := ⟨"E021"⟩

/-- A token is too long. -/
def tokenTooLong : Code := ⟨"E022"⟩

/-- A value has more tokens than expected. -/
def trailingContent : Code := ⟨"E023"⟩

/-- A clause has too many bytes. -/
def clauseTooLong : Code := ⟨"E040"⟩

/-- A parameter has no name. -/
def emptyKey : Code := ⟨"E041"⟩

/-- A quoted value has no closing quote. -/
def unterminatedQuote : Code := ⟨"E042"⟩

/-- Text stands between a quoted value and the next comma. -/
def unexpectedAfterQuote : Code := ⟨"E043"⟩

/-- A parameter's name is not known. -/
def unknownParameter : Code := ⟨"E060"⟩

/-- A filter's name is not known. -/
def unknownFilter : Code := ⟨"E061"⟩

/-- A value that should be a whole number is none. -/
def invalidInteger : Code := ⟨"E062"⟩

/-- A clause names no image. -/
def noImages : Code := ⟨"E063"⟩

/-- A value that should be an error rate is none. -/
def invalidErrorRate : Code := ⟨"E064"⟩

/-- A clause has too many parameters or filters. -/
def limitExceeded : Code := ⟨"E065"⟩

/-- A batch has too many clauses. -/
def batchTooLarge : Code := ⟨"E090"⟩

/-- A clause file cannot be read. -/
def unreadableInput : Code := ⟨"E092"⟩

/-- The log has been set up. -/
def logStarted : Code := ⟨"I004"⟩

/-- A clause has been compiled. -/
def clauseCompiled : Code := ⟨"I100"⟩

/-- A batch has been compiled. -/
def batchCompleted : Code := ⟨"I110"⟩

/-- A warning without a code of its own. -/
def warning : Code := ⟨"W000"⟩

/-- A notice without a code of its own. -/
def info : Code := ⟨"I000"⟩

/-- A detail for debugging, without a code of its own. -/
def debug : Code := ⟨"D000"⟩

/-- What the catalogue says about a code. -/
structure Entry where
  /-- The code itself. -/
  code : Code
  /-- The part of the work in which the failure arises. -/
  category : String
  /-- How grave the failure is. -/
  severity : Severity
  /-- What happened. -/
  description : String
  /-- What to do about it. -/
  action : String
  deriving DecidableEq, Repr

/-- Every known kind of failure, in the order of the codes. -/
def catalogue : List Entry :=
  [⟨invalidNumber, "Lexical", .medium, "Value is not a plain decimal number",
      "Write numbers as digits with an optional sign and fraction"⟩,
   ⟨unexpectedEnd, "Lexical", .medium, "Value ended before all expected tokens were read",
      "Supply every token the parameter requires"⟩,
   ⟨tokenTooLong, "Lexical", .medium, "Token exceeds maximum length", "Shorten the token"⟩,
   ⟨trailingContent, "Lexical", .medium, "Unexpected text after the expected tokens",
      "Remove the extra tokens from the value"⟩,
   ⟨clauseTooLong, "Syntax", .high, "Clause exceeds maximum length",
      "Split the check into several clauses"⟩,
   ⟨emptyKey, "Syntax", .medium, "Parameter has a value but no name",
      "Write parameters as 'name: value'"⟩,
   ⟨unterminatedQuote, "Syntax", .medium, "Quoted value is never closed",
      "Add the closing double quote"⟩,
   ⟨unexpectedAfterQuote, "Syntax", .medium, "Text follows a quoted value",
      "Put the whole value inside the quotes"⟩,
   ⟨unknownParameter, "Clause", .medium, "Unknown image check parameter",
      "Use one of: file, error, tolerance, analyze-offset, stretch, area, filter, filter-a, " ++
        "filter-b, map-filter, crop-if-outside"⟩,
   ⟨unknownFilter, "Clause", .medium, "Unknown image filter",
      "Use one of: contrast, blur, denoise, saturation, quantinize"⟩,
   ⟨invalidInteger, "Clause", .medium, "Parameter must be a non-negative integer",
      "Write the value as plain digits"⟩,
   ⟨noImages, "Clause", .medium, "Image check has no baseline images",
      "Add at least one 'file' parameter"⟩,
   ⟨invalidErrorRate, "Clause", .medium, "Invalid error rate",
      "Write the error rate as '<number>%' or '<number>px'"⟩,
   ⟨limitExceeded, "Clause", .high, "Clause exceeds a compilation limit",
      "Reduce the number of parameters or filters"⟩,
   ⟨batchTooLarge, "Batch", .high, "Batch exceeds maximum clause count",
      "Split the input into smaller batches"⟩,
   ⟨⟨"E091"⟩, "Batch", .critical, "Batch worker thread panicked",
      "File a bug report with the batch input"⟩,
   ⟨unreadableInput, "Batch", .high, "Clause file could not be read",
      "Check the clause file path and permissions"⟩]

/-- What the catalogue says about a code, if it knows it. -/
def entry? (c : Code) : Option Entry :=
  catalogue.find? fun e => e.code = c

/-- The severity of a code; an unknown code is of low severity. -/
def severity (c : Code) : Severity :=
  (c.entry?.map Entry.severity).getD .low

/-- The category of a code. -/
def category (c : Code) : String :=
  (c.entry?.map Entry.category).getD "Unknown"

/-- The description of a code. -/
def description (c : Code) : String :=
  (c.entry?.map Entry.description).getD "Unknown error"

/-- The advice for a code. -/
def action (c : Code) : String :=
  (c.entry?.map Entry.action).getD "No specific action available"

/-- Work can go on after every failure that is not critical. -/
def recoverable (c : Code) : Bool :=
  c.severity != .critical

/-- Work has to stop after a failure that is not recoverable. -/
def requiresHalt (c : Code) : Bool :=
  !c.recoverable

/-- No code stands in the catalogue twice. -/
example : (catalogue.map Entry.code).Nodup := by decide

end Code
end ImageCheck
