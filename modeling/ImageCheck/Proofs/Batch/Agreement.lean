/-
# A batch in parallel and one clause at a time

`SPEC_FULL` §5: results are returned in input order.

However many workers a batch has and whatever order they run in, its outcomes are
those of the clauses compiled one at a time, in input order.

The proof is short once the pieces are known: a batch that need not stop is the
concatenation of its chunks (`compileChunks_of_not_failFast`), the chunks are the
batch cut at every `size` clauses (`flatMap_chunksOf`), and no schedule of the
workers shows (`execution_iff`).
-/

import ImageCheck.Proofs.Batch.Workers

namespace ImageCheck

/-- What comes of a clause that is compiled by itself. -/
def ClauseInput.outcome (defaults : Defaults) (directory : Option String) (clause : ClauseInput) :
    String × Except CompileError Spec :=
  (clause.label, compileClause directory defaults clause.text)

namespace Batch

/-- What came of a clause of a batch. -/
def Job.outcome (job : Job) : String × Except CompileError Spec := (job.label, job.result)

/-- What came of the clauses of a batch that were compiled, in order. -/
def Run.outcomes (r : Run) : List (String × Except CompileError Spec) := r.jobs.map Job.outcome

/-- The outcome of a job is that of its clause by itself, whatever its place. -/
theorem outcome_compileJob (defaults : Defaults) (options : Options) (index : Nat)
    (clause : ClauseInput) :
    (compileJob defaults options index clause).outcome =
      clause.outcome defaults options.directory := by
  simp only [Job.outcome, ClauseInput.outcome, Job.label, Job.result, compileJob,
    Compilation.result_ofClause]

/-- Compiled in one go, every clause comes to what it comes to by itself. -/
theorem map_outcome_jobsFrom (defaults : Defaults) (options : Options) (first : Nat)
    (clauses : List ClauseInput) :
    (jobsFrom defaults options first clauses).map Job.outcome =
      clauses.map (ClauseInput.outcome defaults options.directory) := by
  induction clauses generalizing first with
  | nil => rfl
  | cons clause rest ih =>
    rw [jobsFrom, List.map_cons, List.map_cons, outcome_compileJob, ih]

/-- More than 100000 clauses are refused. -/
theorem run_of_lt {clauses : List ClauseInput} (h : 100000 < clauses.length) (defaults : Defaults)
    (options : Options) : run defaults options clauses = .error (.tooManyClauses clauses.length) :=
  if_pos h

/-- A batch of at most 100000 clauses is compiled chunk by chunk. -/
theorem exists_run_of_le {clauses : List ClauseInput} (h : clauses.length ≤ 100000)
    (defaults : Defaults) (options : Options) :
    ∃ r, run defaults options clauses = .ok r ∧ r.total = clauses.length ∧
      r.jobs = compileChunks defaults options (workerCount options.threads)
        (chunkSize clauses.length (workerCount options.threads))
        (chunksOf (chunkSize clauses.length (workerCount options.threads)) clauses).zipIdx :=
  ⟨_, if_neg (Nat.not_lt.2 h), rfl, rfl⟩

/-- A batch that need not stop is compiled in one go. -/
theorem exists_run_of_not_failFast {clauses : List ClauseInput} (h : clauses.length ≤ 100000)
    (defaults : Defaults) {options : Options} (hstop : options.failFast = false) :
    ∃ r, run defaults options clauses = .ok r ∧ r.total = clauses.length ∧
      r.jobs = jobsFrom defaults options 0 clauses ∧
      ∀ jobs, Executes defaults options clauses jobs ↔ jobs = r.jobs := by
  obtain ⟨r, hrun, htotal, hjobs⟩ := exists_run_of_le h defaults options
  refine ⟨r, hrun, htotal, ?_, fun jobs => ?_⟩
  · have hchunks := flatMap_chunksOf defaults options
      (chunkSize_pos clauses.length (workerCount options.threads)) 0 0 clauses
    simp only [Nat.zero_add, Nat.zero_mul] at hchunks
    rw [hjobs, compileChunks_of_not_failFast defaults options hstop, hchunks]
  · rw [hjobs]
    exact execution_iff

/-- **A batch in parallel is its clauses one at a time.** A batch of at most 100000 clauses that
need not stop at a failure comes, for any number of workers and under any schedule of them, to the
label and the result of every clause in input order, with none skipped; a larger batch is refused.
No schedule goes on for ever or stops halfway. -/
theorem run_outcomes_eq_map (defaults : Defaults) (options : Options)
    (clauses : List ClauseInput) :
    (clauses.length ≤ 100000 → options.failFast = false →
      ∃ r, run defaults options clauses = .ok r ∧
        r.outcomes = clauses.map (ClauseInput.outcome defaults options.directory) ∧
        r.skipped = 0 ∧
        (∀ jobs, Executes defaults options clauses jobs ↔ jobs = r.jobs) ∧
        ∀ threads, ∃ other, run defaults { options with threads } clauses = .ok other ∧
          other.outcomes = r.outcomes) ∧
    (100000 < clauses.length →
      run defaults options clauses = .error (.tooManyClauses clauses.length)) ∧
    (WellFounded fun t u : Team => Step defaults options u t) ∧
    ∀ t, Halted defaults options t ↔ t.waiting = [] ∧ t.started = [] := by
  refine ⟨fun hlen hstop => ?_, fun hlen => run_of_lt hlen defaults options,
    wellFounded_step defaults options, fun t => halted_iff⟩
  obtain ⟨r, hrun, htotal, hjobs, hexec⟩ := exists_run_of_not_failFast hlen defaults hstop
  have houtcomes : r.outcomes = clauses.map (ClauseInput.outcome defaults options.directory) := by
    rw [Run.outcomes, hjobs, map_outcome_jobsFrom]
  refine ⟨r, hrun, houtcomes, ?_, hexec, fun threads => ?_⟩
  · rw [Run.skipped, htotal, hjobs, length_jobsFrom, Nat.sub_self]
  · have hstop' : ({ options with threads } : Options).failFast = false := hstop
    obtain ⟨other, hother, -, hjobs', -⟩ := exists_run_of_not_failFast hlen defaults hstop'
    refine ⟨other, hother, ?_⟩
    rw [houtcomes, Run.outcomes, hjobs', map_outcome_jobsFrom]

/-- A clause that compiles, one without an image and one with an unknown name. -/
def mixedBatch : List ClauseInput :=
  [⟨"a", "file: a.png"⟩, ⟨"b", "stretch"⟩, ⟨"c", "file: c.png, foo: bar"⟩]

/-- Four workers for the three clauses of `mixedBatch` come to what each is by itself. -/
theorem run_outcomes_mixedBatch :
    mixedBatch.length ≤ 100000 ∧
      ∃ r, run .builtin ⟨4, false, some "/specs"⟩ mixedBatch = .ok r ∧
        r.outcomes = mixedBatch.map (ClauseInput.outcome .builtin (some "/specs")) ∧
        r.skipped = 0 := by
  refine ⟨by decide, ?_⟩
  obtain ⟨r, hrun, houtcomes, hskipped, -⟩ :=
    (run_outcomes_eq_map .builtin ⟨4, false, some "/specs"⟩ mixedBatch).1 (by decide) rfl
  exact ⟨r, hrun, houtcomes, hskipped⟩

end Batch
end ImageCheck
