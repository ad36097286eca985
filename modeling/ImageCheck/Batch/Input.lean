/-
# Clauses of a file

`SPEC_FULL` §6, the `batch` command; `ClauseInput` and `parse_clause_lines`.

A clause file holds one clause a line. Blank lines and lines that begin with `#`
are passed over; the label of a clause is the name of its file and its line.
-/

import ImageCheck.Text.Blank

namespace ImageCheck

/-- A clause and where it comes from. -/
structure ClauseInput where
  /-- Where the clause comes from. -/
  label : String
  /-- The text of the clause. -/
  text : String
  deriving DecidableEq, Repr

namespace ClauseInput

/-- The clause on a line, if there is one. -/
def ofLine? (source : String) (number : Nat) (line : List Char) : Option ClauseInput :=
  let trimmed := Text.trim line
  match trimmed with
  | [] => none
  | '#' :: _ => none
  | _ => some ⟨source ++ ":" ++ toString number, String.ofList trimmed⟩

/-- The clauses of a text, one a line. A carriage return at the end of a line is a blank. -/
def ofContent (source content : String) : List ClauseInput :=
  ((content.toList.splitOn '\n').zipIdx 1).filterMap fun line => ofLine? source line.2 line.1

end ClauseInput
end ImageCheck
