/-
# Results of a batch for the user

`SPEC_FULL` §6, the `batch` command; what `run_batch` and `batch_json` print.

The results of a batch as lines of text, one a clause and a summary, or as one
JSON object with the names of all fields in order.
-/

import ImageCheck.Batch.Run
import ImageCheck.Json.Writer
import ImageCheck.Spec.Json

namespace ImageCheck
namespace Batch

/-- A clause on a line of its own. -/
def Job.line (j : Job) : String :=
  match j.result with
  | .ok spec => j.label ++ ": ok (" ++ toString spec.images.length ++ " images)\n"
  | .error e => j.label ++ ": error[" ++ e.code.text ++ "]: " ++ e.message ++ "\n"

/-- A clause as a JSON object. -/
def Job.toJson (j : Job) : Json :=
  match j.result with
  | .ok spec => .object [("label", .string j.label), ("spec", spec.toJson)]
  | .error e =>
    .object
      [("label", .string j.label),
       ("error", .object [("code", .string e.code.text), ("message", .string e.message)])]

namespace Run

/-- A batch as lines of text. -/
def report (r : Run) (elapsed : Duration) : String :=
  String.join (r.jobs.map Job.line) ++ "\n" ++ r.summary elapsed ++ "\n"

/-- A batch as a JSON object. -/
def toJson (r : Run) : Json :=
  Json.sortKeys <| .object
    [("outcomes", .array (r.jobs.map Job.toJson)),
     ("successful", .integer r.successful),
     ("failed", .integer r.failed),
     ("skipped", .integer r.skipped)]

end Run
end Batch
end ImageCheck
