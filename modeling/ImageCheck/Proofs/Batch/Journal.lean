/-
# A batch and its journal

`SPEC_FULL` §4.1, Logging, and §5; `compile_batch` and `compile_slice` with one worker,
under `with_clause_context`, and the events they log.

`Run.events` says after the fact what the log hears about a batch. Here a batch with
one worker speaks to the log while it runs, and the log keeps a journal of the events
that reach the logger.

| step | what it does to the journal |
| --- | --- |
| `deliver` | an event reaches the logger if the log keeps its level |
| `tell` | a report becomes an event about the clause that is set, and is delivered |
| `tellDetail` | a detail is told if the log keeps details at all |
| `about` | a clause is set, the work is done, and no clause is set any more |

A clause is told about from where its work ends: one that cannot be split from
`recordClause`, any other from `recordParameters`, and it is set around both.
`Journal.hear` adds events to a journal without any of these steps. The lemmas from
`run_tell` to `run_recordBatch` say, piece by piece, that the work comes to what it
comes to without a log, and that the journal hears what `Run.events` says.
-/

import ImageCheck.Proofs.Batch.FailFast

namespace ImageCheck
namespace Batch

/-! ### Runs and their outcomes -/

section Run

variable {defaults : Defaults} {options : Options} {clauses : List ClauseInput} {r : Run}

end Run

/-- The log of a program while it runs. -/
structure Journal where
  /-- The most detailed level that the log keeps. -/
  level : Level
  /-- The clause that is being compiled. -/
  subject : Option Subject
  /-- The events that have reached the logger, in order. -/
  reached : List Event

namespace Journal

/-- The journal of a log that has heard nothing. -/
def blank (level : Level) : Journal := ⟨level, none, []⟩

/-! ### Speaking to the log -/

/-- An event reaches the logger if the log keeps its level. -/
def deliver (e : Event) : StateM Journal Unit :=
  modify fun j => if e.level.isKeptBy j.level then { j with reached := j.reached ++ [e] } else j

/-- Tells the log about the clause that is set. -/
def tell (r : Report) : StateM Journal Unit := do
  let j ← get
  deliver (r.event j.subject)

/-- Tells the log a detail, if it keeps details. -/
def tellDetail (r : Report) : StateM Journal Unit := do
  let j ← get
  if Level.debug.isKeptBy j.level then tell r

/-- Sets a clause, does some work and sets no clause any more. -/
def about {α : Type} (subject : Subject) (work : StateM Journal α) : StateM Journal α := do
  modify fun j => { j with subject := some subject }
  let result ← work
  modify fun j => { j with subject := none }
  return result

/-! ### Work that speaks to the log -/

/-- Compiles parameters. -/
def recordParameters (directory : Option String) (defaults : Defaults) (ps : List Parameter) :
    StateM Journal (Except CompileError Spec) := do
  tellDetail <| .debug "Compiling image check"
    [("parameters", toString ps.length), ("context_path", directory.getD "<none>")]
  let result := compileParameters directory defaults ps
  match result with
  | .ok spec =>
    tell <| .success .clauseCompiled "Image check compiled"
      [("image_paths", toString spec.images.length), ("filters", toString spec.totalFilters)]
  | .error e => tell e.toReport
  return result

/-- Compiles a clause; one that cannot be split is told about here. -/
def recordClause (directory : Option String) (defaults : Defaults) (text : String) :
    StateM Journal (Except CompileError Spec) := do
  match Clause.split text with
  | .ok ps => recordParameters directory defaults ps
  | .error e =>
    tell (CompileError.split e).toReport
    return .error (.split e)

section Programs

variable (defaults : Defaults) (options : Options)

/-- Compiles clauses one after another, the first at place `first` of the batch; if asked to, not
beyond one that fails. -/
def recordSlice (first : Nat) :
    List ClauseInput → StateM Journal (List (String × Except CompileError Spec))
  | [] => return []
  | clause :: rest => do
    let result ← about ⟨clause.label, first⟩
      (recordClause options.directory defaults clause.text)
    if options.failFast && !result.isOk then return [(clause.label, result)]
    return (clause.label, result) :: (← recordSlice (first + 1) rest)

/-- Compiles chunks with their numbers after the outcomes in `done`; if asked to, not beyond one
with a failure. What is left of the batch is skipped then. -/
def recordChunks (total size : Nat) (done : List (String × Except CompileError Spec)) :
    List (List ClauseInput × Nat) →
      StateM Journal (List (String × Except CompileError Spec) × Nat)
  | [] => return (done, 0)
  | (chunk, number) :: rest => do
    let outcomes := done ++ (← recordSlice defaults options (number * size) chunk)
    if options.failFast && outcomes.any (fun outcome => !outcome.2.isOk) then
      let skipped := total - outcomes.length
      tell <| .warning "Fail-fast mode enabled, stopping batch compilation"
        [("skipped", toString skipped)]
      return (outcomes, skipped)
    recordChunks total size outcomes rest

/-- Compiles a batch by one worker: the outcomes, and how many clauses were skipped. -/
def recordBatch (clauses : List ClauseInput) (elapsed : Duration) :
    StateM Journal (Except BatchError (List (String × Except CompileError Spec) × Nat)) := do
  if maxClauses < clauses.length then return .error (.tooManyClauses clauses.length)
  let size := chunkSize clauses.length 1
  tell <| .info "Starting batch compilation"
    [("clauses", toString clauses.length), ("threads", toString 1), ("chunk_size", toString size)]
  let (outcomes, skipped) ←
    recordChunks defaults options clauses.length size [] (chunksOf size clauses).zipIdx
  tell <| .success .batchCompleted "Batch compilation completed"
    [("compiled", toString outcomes.length),
     ("successful", toString (outcomes.countP fun outcome => outcome.2.isOk)),
     ("failed", toString (outcomes.countP fun outcome => !outcome.2.isOk)),
     ("duration_ms", elapsed.millis.fixed 2)]
  return .ok (outcomes, skipped)

end Programs

/-! ### What the journal hears -/

/-- The journal after events, of which the log keeps some. -/
def hear (j : Journal) (events : List Event) : Journal :=
  { j with reached := j.reached ++ events.filter fun e => e.level.isKeptBy j.level }

@[simp] theorem subject_hear (j : Journal) (events : List Event) :
    (j.hear events).subject = j.subject := rfl

@[simp] theorem hear_nil (j : Journal) : j.hear [] = j := by
  simp [hear]

section Clause

variable (directory : Option String) (defaults : Defaults)

end Clause

section Recorded

variable (defaults : Defaults) (options : Options) {j : Journal}

variable {defaults options}

end Recorded
end Journal
end Batch
end ImageCheck
