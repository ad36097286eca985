/-
# Compiling a batch

`SPEC_FULL` §5; `compile_batch`, with `compile_slice`, `compile_chunk_parallel` and
`read_clause_file`, and the counts, failures and summary of `BatchResults`.

The clauses of a batch are compiled in their order, chunk by chunk. A batch that
is to stop at a failure stops, with one worker, right after the clause that
fails, and with more workers after the chunk that holds it; the clauses not
reached are skipped.

* `Batch.run`: the compilations of a batch;
* `Run.events`: what the log hears about it;
* `Run.summary`: one line about all of it.
-/

import ImageCheck.Batch.Input
import ImageCheck.Batch.Plan
import ImageCheck.Compile.Compilation
import ImageCheck.Files

namespace ImageCheck

/-- A stretch of time. -/
structure Duration where
  /-- The length in nanoseconds. -/
  nanoseconds : Nat

namespace Duration

/-- A stretch of so many milliseconds. -/
def ofMillis (ms : Nat) : Duration := ⟨ms * 1000000⟩

/-- The length in seconds: the whole seconds and the rest, added up. -/
def seconds (d : Duration) : Binary64 :=
  (Binary64.ofNat (d.nanoseconds / 1000000000)).addMagnitudes
    (.ofFraction false (d.nanoseconds % 1000000000) 1000000000)

/-- The length in milliseconds. -/
def millis (d : Duration) : Binary64 :=
  d.seconds.mulMagnitudes (.ofNat 1000)

end Duration

namespace Batch

/-- How a batch is to be compiled. -/
structure Options where
  /-- The workers asked for. -/
  threads : Nat
  /-- Whether to stop at a failure. -/
  failFast : Bool
  /-- The directory of the images. -/
  directory : Option String

/-- Why there is nothing to show for a batch. -/
inductive BatchError where
  /-- The clause file cannot be read. -/
  | unreadable (path : String) (cause : FileError)
  /-- There are more than `maxClauses` clauses. -/
  | tooManyClauses (count : Nat)
  deriving DecidableEq, Repr

namespace BatchError

/-- The name of a failure, for a terminal. -/
def name : BatchError → String
  | unreadable _ _ => "Io"
  | tooManyClauses _ => "TooManyClauses"

/-- The wording of a failure. -/
def message : BatchError → String
  | unreadable path cause => "Failed to read clause file '" ++ path ++ "': " ++ cause.message
  | tooManyClauses count =>
    "Too many clauses in batch: " ++ toString count ++ " (max: " ++ toString maxClauses ++ ")"

/-- The code of a failure. -/
def code : BatchError → Code
  | unreadable _ _ => .unreadableInput
  | tooManyClauses _ => .batchTooLarge

end BatchError

/-- One clause of a batch, compiled. -/
structure Job where
  /-- Which clause of the batch it is. -/
  subject : Subject
  /-- What came of the clause. -/
  compilation : Compilation

namespace Job

/-- Where the clause comes from. -/
def label (j : Job) : String := j.subject.label

/-- The specification, or why there is none. -/
def result (j : Job) : Except CompileError Spec := j.compilation.result

/-- Why the clause does not compile, if it does not. -/
def error? (j : Job) : Option CompileError :=
  match j.result with
  | .ok _ => none
  | .error e => some e

/-- Whether the clause does not compile. -/
def failed (j : Job) : Bool := j.error?.isSome

/-- What the log hears about the clause. -/
def events (j : Job) : List Event :=
  j.compilation.reports.map (Report.event (some j.subject))

end Job

/-- Compiles the clause at a place of the batch. -/
def compileJob (defaults : Defaults) (options : Options) (index : Nat) (clause : ClauseInput) :
    Job :=
  ⟨⟨clause.label, index⟩, Compilation.ofClause options.directory defaults clause.text⟩

/-- Compiles clauses one after another, the first at place `first` of the batch; if asked to, not
beyond one that fails. -/
def compileSlice (defaults : Defaults) (options : Options) (stop : Bool) (first : Nat) :
    List ClauseInput → List Job
  | [] => []
  | clause :: rest =>
    let job := compileJob defaults options first clause
    if stop && job.failed then [job]
    else job :: compileSlice defaults options stop (first + 1) rest

/-- Compiles a chunk by several workers, each of which takes one slice to its end. -/
def compileSlices (defaults : Defaults) (options : Options) (workers first : Nat)
    (chunk : List ClauseInput) : List Job :=
  let size := sliceSize chunk.length workers
  (chunksOf size chunk).zipIdx.flatMap fun slice =>
    compileSlice defaults options false (first + slice.2 * size) slice.1

/-- Compiles a chunk whose first clause stands at place `first` of the batch. -/
def compileChunk (defaults : Defaults) (options : Options) (workers first : Nat)
    (chunk : List ClauseInput) : List Job :=
  if workers = 1 then compileSlice defaults options options.failFast first chunk
  else compileSlices defaults options workers first chunk

/-- Compiles chunks with their numbers; if asked to, not beyond one with a failure. -/
def compileChunks (defaults : Defaults) (options : Options) (workers size : Nat) :
    List (List ClauseInput × Nat) → List Job
  | [] => []
  | (chunk, number) :: rest =>
    let jobs := compileChunk defaults options workers (number * size) chunk
    if options.failFast && jobs.any Job.failed then jobs
    else jobs ++ compileChunks defaults options workers size rest

/-- What came of a batch. -/
structure Run where
  /-- The number of clauses. -/
  total : Nat
  /-- The number of workers. -/
  workers : Nat
  /-- The number of clauses in a chunk. -/
  chunk : Nat
  /-- Whether the batch was to stop at a failure. -/
  failFast : Bool
  /-- The clauses that were compiled, in order. -/
  jobs : List Job

/-- Compiles the clauses of a batch, if there are not too many. -/
def run (defaults : Defaults) (options : Options) (clauses : List ClauseInput) :
    Except BatchError Run :=
  if maxClauses < clauses.length then .error (.tooManyClauses clauses.length)
  else
    let workers := workerCount options.threads
    let size := chunkSize clauses.length workers
    .ok
      { total := clauses.length
        workers := workers
        chunk := size
        failFast := options.failFast
        jobs := compileChunks defaults options workers size (chunksOf size clauses).zipIdx }

/-- The clauses of a file. -/
def readClauses (files : Files) (path : String) : Except BatchError (List ClauseInput) :=
  match files path with
  | .ok content => .ok (ClauseInput.ofContent path content)
  | .error e => .error (.unreadable path e)

namespace Run

/-- The labels and causes of the clauses that do not compile, in order. -/
def failures (r : Run) : List (String × CompileError) :=
  r.jobs.filterMap fun job => job.error?.map fun e => (job.label, e)

/-- The number of clauses that do not compile. -/
def failed (r : Run) : Nat := r.jobs.countP Job.failed

/-- The number of clauses that compile. -/
def successful (r : Run) : Nat := r.jobs.countP fun job => !job.failed

/-- The number of clauses not reached. -/
def skipped (r : Run) : Nat := r.total - r.jobs.length

/-- Whether a failure has stopped the batch. -/
def stopped (r : Run) : Bool := r.failFast && r.jobs.any Job.failed

/-- The share of compiled clauses that compile. -/
def successRate (r : Run) : Binary64 :=
  if r.jobs.isEmpty then .ofNat 0 else .ofFraction false r.successful r.jobs.length

/-- One line about the batch. -/
def summary (r : Run) (elapsed : Duration) : String :=
  "Batch compilation completed: " ++ toString r.jobs.length ++ " clauses compiled, " ++
    toString r.successful ++ " successful (" ++
    (r.successRate.mulMagnitudes (.ofNat 100)).fixed 1 ++ "%), " ++
    toString r.failed ++ " failed, " ++ toString r.skipped ++ " skipped, " ++
    elapsed.seconds.fixed 2 ++ "s total"

/-- What the log hears before the first clause. -/
def opening (r : Run) : Report :=
  .info "Starting batch compilation"
    [("clauses", toString r.total), ("threads", toString r.workers),
     ("chunk_size", toString r.chunk)]

/-- What the log hears when a failure has stopped the batch. -/
def warning (r : Run) : List Report :=
  if r.stopped then
    [.warning "Fail-fast mode enabled, stopping batch compilation"
      [("skipped", toString r.skipped)]]
  else []

/-- What the log hears after the last clause. -/
def closing (r : Run) (elapsed : Duration) : Report :=
  .success .batchCompleted "Batch compilation completed"
    [("compiled", toString r.jobs.length), ("successful", toString r.successful),
     ("failed", toString r.failed), ("duration_ms", elapsed.millis.fixed 2)]

/-- All that the log hears about the batch, in order. -/
def events (r : Run) (elapsed : Duration) : List Event :=
  r.opening.event none :: r.jobs.flatMap Job.events ++
    (r.warning ++ [r.closing elapsed]).map (Report.event none)

end Run
end Batch
end ImageCheck
