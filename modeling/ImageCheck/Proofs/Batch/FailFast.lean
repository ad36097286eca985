/-
# Where a batch stops

`SPEC_FULL` §5 and §6, `--fail-fast`; where `compile_batch` stops, and the exit status
of `run_batch`.

A batch that is to stop at a failure compiles a beginning of its clauses:

| workers | clauses compiled |
| --- | --- |
| any, and all compile | all |
| one | up to the first that does not compile, at place `i` |
| several | up to the end of its chunk, at `(i / c + 1) * c` or the end of the batch |

`compileChunks_of_one` and `compileChunks_of_several` find these ends by going from
chunk to chunk; counted in jobs they need no case for a batch without a failure,
as `findIdx` is then the length. `exists_run_take` is what every batch has in
common, stopping or not: its jobs are a beginning of all jobs that holds the first
failure, if there is one. The verdict follows from that alone. `StopsAt` is all that is
said of the stop.
-/

import ImageCheck.Command.Run
import ImageCheck.Proofs.Batch.Agreement

namespace ImageCheck

/-- Whether a clause does not compile by itself. -/
def ClauseInput.fails (defaults : Defaults) (directory : Option String) (clause : ClauseInput) :
    Bool :=
  !(compileClause directory defaults clause.text).isOk

namespace Batch

/-- The label and the cause of an outcome that is a failure. -/
def failure? : String × Except CompileError Spec → Option (String × CompileError)
  | (_, .ok _) => none
  | (label, .error e) => some (label, e)

/-! ### Going from chunk to chunk -/

/-- Some job fails exactly if the search for the first that does ends within the list. -/
theorem any_failed_iff {jobs : List Job} :
    jobs.any Job.failed = true ↔ jobs.findIdx Job.failed < jobs.length := by
  rw [List.any_eq_true, List.findIdx_lt_length]

section Stop

variable (defaults : Defaults) {options : Options} {size : Nat}

/-- One worker stops right after the first failure. -/
theorem compileChunks_of_one (hstop : options.failFast = true) (hsize : 0 < size) (number : Nat)
    (clauses : List ClauseInput) :
    compileChunks defaults options 1 size ((chunksOf size clauses).zipIdx number) =
      (jobsFrom defaults options (number * size) clauses).take
        ((jobsFrom defaults options (number * size) clauses).findIdx Job.failed + 1) := by
  induction clauses using chunks_induction hsize generalizing number with
  | nil => simp [chunksOf_nil, jobsFrom, compileChunks]
  | step clauses hne ih =>
    rw [chunksOf_eq_cons hsize hne, List.zipIdx_cons, compileChunks, compileChunk, if_pos rfl,
      hstop, compileSlice_of_stop, ih, Nat.succ_mul,
      jobsFrom_eq_append defaults options (number * size) size clauses, List.findIdx_append]
    generalize jobsFrom defaults options (number * size) (clauses.take size) = head
    generalize jobsFrom defaults options (number * size + size) (clauses.drop size) = tail
    by_cases hfailed : head.findIdx Job.failed < head.length
    · have hany : (head.take (head.findIdx Job.failed + 1)).any Job.failed = true := by
        rw [any_failed_iff, List.findIdx_take, List.length_take]
        omega
      rw [if_pos hfailed, hany, List.take_append_of_le_length (by omega)]
      rfl
    · have hhead : head.take (head.findIdx Job.failed + 1) = head :=
        List.take_of_length_le (by omega)
      rw [if_neg hfailed, hhead, if_neg (by simpa [any_failed_iff] using hfailed),
        Nat.add_right_comm, Nat.add_comm _ head.length, List.take_length_add_append]

/-- Where only the last chunk may be short, what is taken beyond a chunk comes from those after
it. -/
theorem take_append_of_chunk {head tail : List Job} (hle : head.length ≤ size)
    (hfull : tail ≠ [] → head.length = size) (k : Nat) :
    (head ++ tail).take (size + k) = head ++ tail.take k := by
  by_cases htail : tail = []
  · rw [htail, List.append_nil, List.take_nil, List.append_nil]
    exact List.take_of_length_le (by omega)
  · rw [← hfull htail, List.take_length_add_append]

/-- Several workers stop at the end of the chunk with the first failure. -/
theorem compileChunks_of_several (hstop : options.failFast = true) (hsize : 0 < size)
    {workers : Nat} (hworkers : workers ≠ 1) (number : Nat) (clauses : List ClauseInput) :
    compileChunks defaults options workers size ((chunksOf size clauses).zipIdx number) =
      (jobsFrom defaults options (number * size) clauses).take
        (((jobsFrom defaults options (number * size) clauses).findIdx Job.failed / size + 1) *
          size) := by
  induction clauses using chunks_induction hsize generalizing number with
  | nil => simp [chunksOf_nil, jobsFrom, compileChunks]
  | step clauses hne ih =>
    have hnext : (number + 1) * size = number * size + size := Nat.succ_mul ..
    have hhead := length_jobsFrom defaults options (number * size) (clauses.take size)
    have htail := length_jobsFrom defaults options (number * size + size) (clauses.drop size)
    rw [List.length_take] at hhead
    rw [List.length_drop] at htail
    rw [chunksOf_eq_cons hsize hne, List.zipIdx_cons, compileChunks, compileChunk,
      if_neg hworkers, compileSlices_eq, hstop, ih, hnext,
      jobsFrom_eq_append defaults options (number * size) size clauses, List.findIdx_append]
    generalize jobsFrom defaults options (number * size) (clauses.take size) = head at *
    generalize jobsFrom defaults options (number * size + size) (clauses.drop size) = tail at *
    have hle : head.length ≤ size := by omega
    have hfull : tail ≠ [] → head.length = size := by
      intro hne'
      have hpos := List.length_pos_iff.2 hne'
      omega
    by_cases hfailed : head.findIdx Job.failed < head.length
    · have hzero : head.findIdx Job.failed / size = 0 := Nat.div_eq_of_lt (by omega)
      have htake := take_append_of_chunk hle hfull 0
      rw [if_pos hfailed, any_failed_iff.2 hfailed, hzero, Nat.zero_add, Nat.one_mul]
      simpa using htake.symm
    · rw [if_neg hfailed, if_neg (by simpa [any_failed_iff] using hfailed)]
      conv_rhs => rw [Nat.succ_mul, Nat.add_comm _ size, take_append_of_chunk hle hfull]
      congr 1
      -- where chunks follow, this one is full and moves the first failure by its whole size
      by_cases hne' : tail = []
      · rw [hne', List.take_nil, List.take_nil]
      · rw [hfull hne', Nat.add_div_right _ hsize]

variable (options) in
/-- **What all batches have in common.** The jobs of a batch are a beginning of all its jobs, which
reaches beyond the first failure. -/
theorem exists_compileChunks_eq_take (hsize : 0 < size) (workers : Nat)
    (clauses : List ClauseInput) :
    ∃ k, compileChunks defaults options workers size (chunksOf size clauses).zipIdx =
        (jobsFrom defaults options 0 clauses).take k ∧
      (jobsFrom defaults options 0 clauses).findIdx Job.failed < k := by
  cases hstop : options.failFast with
  | false =>
    have hchunks := flatMap_chunksOf defaults options hsize 0 0 clauses
    simp only [Nat.zero_add, Nat.zero_mul] at hchunks
    refine ⟨(jobsFrom defaults options 0 clauses).length + 1, ?_,
      Nat.lt_succ_of_le List.findIdx_le_length⟩
    rw [compileChunks_of_not_failFast defaults options hstop, hchunks,
      List.take_of_length_le (by omega)]
  | true =>
    by_cases hworkers : workers = 1
    · have hone := compileChunks_of_one defaults hstop hsize 0 clauses
      rw [Nat.zero_mul] at hone
      rw [hworkers, hone]
      exact ⟨_, rfl, Nat.lt_succ_self _⟩
    · have hseveral := compileChunks_of_several defaults hstop hsize hworkers 0 clauses
      rw [Nat.zero_mul] at hseveral
      rw [hseveral]
      exact ⟨_, rfl, by rw [Nat.mul_comm]; exact Nat.lt_mul_div_succ _ hsize⟩

end Stop

/-! ### Outcomes in place of jobs -/

/-- A job fails exactly if its outcome is a failure. -/
theorem Job.failed_eq (job : Job) : job.failed = !job.outcome.2.isOk := by
  unfold Job.failed Job.error? Job.outcome
  cases job.result <;> rfl

/-- An outcome has no failure exactly if its job does not fail. -/
theorem failure?_outcome_eq_none_iff {job : Job} :
    failure? job.outcome = none ↔ job.failed = false := by
  rw [Job.failed_eq]
  obtain ⟨label, result⟩ := job.outcome
  cases result <;> simp [failure?, Except.isOk, Except.toBool]

/-- The failures of a batch are those among its outcomes, in order. -/
theorem failures_eq (r : Run) : r.failures = r.outcomes.filterMap failure? := by
  unfold Run.failures Run.outcomes
  rw [List.filterMap_map]
  congr 1
  funext job
  simp only [Function.comp_apply, Job.outcome, Job.error?]
  cases job.result <;> rfl

/-- Each outcome is counted once, as a success or as a failure. -/
theorem successful_add_failed (r : Run) : r.successful + r.failed = r.outcomes.length := by
  unfold Run.successful Run.failed Run.outcomes
  rw [List.length_map, List.length_eq_countP_add_countP Job.failed, Nat.add_comm]
  congr 2
  funext job
  simp

/-- The first failure of the jobs is the first clause that fails by itself. -/
theorem findIdx_failed_jobsFrom (defaults : Defaults) (options : Options) (first : Nat)
    (clauses : List ClauseInput) :
    (jobsFrom defaults options first clauses).findIdx Job.failed =
      clauses.findIdx (ClauseInput.fails defaults options.directory) := by
  induction clauses generalizing first with
  | nil => rfl
  | cons clause rest ih =>
    have hhead : (compileJob defaults options first clause).failed =
        clause.fails defaults options.directory := by
      rw [Job.failed_eq, outcome_compileJob]
      rfl
    rw [jobsFrom, List.findIdx_cons, List.findIdx_cons, hhead, ih]

section Verdict

variable {jobs : List Job} {k : Nat}

/-- A beginning that reaches beyond the first failure is free of failures only if the whole is. -/
theorem countP_failed_take_eq_zero_iff (hk : jobs.findIdx Job.failed < k) :
    (jobs.take k).countP Job.failed = 0 ↔ jobs.findIdx Job.failed = jobs.length := by
  have hle : jobs.findIdx Job.failed ≤ jobs.length := List.findIdx_le_length
  have hnone : (jobs.take k).countP Job.failed = 0 ↔
      (jobs.take k).findIdx Job.failed = (jobs.take k).length := by
    rw [List.countP_eq_zero, List.findIdx_eq_length]
    simp
  rw [hnone, List.findIdx_take, List.length_take]
  omega

/-- A beginning that reaches beyond the first failure has the same first failure as the whole. -/
theorem findSome?_failure?_take (hk : jobs.findIdx Job.failed < k) :
    ((jobs.take k).map Job.outcome).findSome? failure? =
      (jobs.map Job.outcome).findSome? failure? := by
  have hsplit : jobs.map Job.outcome =
      (jobs.take k).map Job.outcome ++ (jobs.drop k).map Job.outcome := by
    rw [← List.map_append, List.take_append_drop]
  rw [hsplit, List.findSome?_append]
  cases hfirst : ((jobs.take k).map Job.outcome).findSome? failure? with
  | some failure => rfl
  | none =>
    have hzero : (jobs.take k).countP Job.failed = 0 := by
      rw [List.countP_eq_zero]
      intro job hjob
      have hnone := List.findSome?_eq_none_iff.1 hfirst _ (List.mem_map_of_mem hjob)
      simpa using failure?_outcome_eq_none_iff.1 hnone
    have hall := List.findIdx_eq_length.1 ((countP_failed_take_eq_zero_iff hk).1 hzero)
    have hrest : ((jobs.drop k).map Job.outcome).findSome? failure? = none := by
      rw [List.findSome?_eq_none_iff]
      intro outcome houtcome
      obtain ⟨job, hjob, rfl⟩ := List.mem_map.1 houtcome
      exact failure?_outcome_eq_none_iff.2 (hall job (List.mem_of_mem_drop hjob))
    rw [hrest]
    rfl

end Verdict

/-- The number of clauses that a batch compiles which stops at a failure; `fails` tells the clauses
that do not compile. -/
def reach (fails : ClauseInput → Bool) (threads : Nat) (clauses : List ClauseInput) : Nat :=
  let n := clauses.length
  let t := max 1 (min 8 threads)
  let c := max 1 (min 256 ((n + t - 1) / t * t))
  match clauses.findIdx? fails with
  | none => n
  | some i => if t = 1 then i + 1 else min n ((i / c + 1) * c)

/-- A batch reaches no more clauses than it has. -/
theorem reach_le (fails : ClauseInput → Bool) (threads : Nat) (clauses : List ClauseInput) :
    reach fails threads clauses ≤ clauses.length := by
  unfold reach
  simp only
  split
  · exact Nat.le_refl _
  · rename_i i hi
    obtain ⟨hlt, -⟩ := List.findIdx?_eq_some_iff_findIdx_eq.1 hi
    split <;> omega

/-- Counted from the place of the first failure, which is the length where there is none, `reach`
needs no case for a batch without a failure. -/
theorem reach_eq_min (fails : ClauseInput → Bool) (threads : Nat) (clauses : List ClauseInput) :
    reach fails threads clauses = min clauses.length
      (if workerCount threads = 1 then clauses.findIdx fails + 1
        else (clauses.findIdx fails / chunkSize clauses.length (workerCount threads) + 1) *
          chunkSize clauses.length (workerCount threads)) := by
  have hsize := chunkSize_pos clauses.length (workerCount threads)
  have hbeyond := Nat.lt_mul_div_succ (clauses.findIdx fails) hsize
  rw [Nat.mul_comm] at hbeyond
  unfold reach
  simp only
  cases hidx : clauses.findIdx? fails with
  | none =>
    have hlast := List.findIdx?_eq_none_iff_findIdx_eq.1 hidx
    show clauses.length = _
    rw [Nat.min_eq_left]
    split <;> omega
  | some i =>
    obtain ⟨hlt, hi⟩ := List.findIdx?_eq_some_iff_findIdx_eq.1 hidx
    rw [hi]
    by_cases hone : workerCount threads = 1
    · rw [if_pos hone, Nat.min_eq_right hlt]
      exact if_pos hone
    · rw [if_neg hone]
      exact if_neg hone

/-- The jobs of a batch that is to stop are as many of the first as `reach` says. -/
theorem compileChunks_eq_take_reach (defaults : Defaults) {options : Options}
    (hstop : options.failFast = true) (clauses : List ClauseInput) :
    compileChunks defaults options (workerCount options.threads)
        (chunkSize clauses.length (workerCount options.threads))
        (chunksOf (chunkSize clauses.length (workerCount options.threads)) clauses).zipIdx =
      (jobsFrom defaults options 0 clauses).take
        (reach (ClauseInput.fails defaults options.directory) options.threads clauses) := by
  have hsize := chunkSize_pos clauses.length (workerCount options.threads)
  have hmin (k : Nat) : (jobsFrom defaults options 0 clauses).take (min clauses.length k) =
      (jobsFrom defaults options 0 clauses).take k := by
    rw [List.take_eq_take_iff, length_jobsFrom]
    omega
  rw [reach_eq_min, hmin]
  by_cases hone : workerCount options.threads = 1
  · have hchunks := compileChunks_of_one defaults hstop hsize 0 clauses
    rw [Nat.zero_mul, findIdx_failed_jobsFrom] at hchunks
    rw [if_pos hone]
    rw [hone] at hchunks ⊢
    exact hchunks
  · have hchunks := compileChunks_of_several defaults hstop hsize hone 0 clauses
    rw [Nat.zero_mul, findIdx_failed_jobsFrom] at hchunks
    rw [if_neg hone]
    exact hchunks

/-! ### The result -/

/-- Whatever its options, a batch has a run whose jobs reach beyond the first failure. -/
theorem exists_run_take {clauses : List ClauseInput} (h : clauses.length ≤ 100000)
    (defaults : Defaults) (options : Options) :
    ∃ r k, run defaults options clauses = .ok r ∧
      r.jobs = (jobsFrom defaults options 0 clauses).take k ∧
      (jobsFrom defaults options 0 clauses).findIdx Job.failed < k := by
  obtain ⟨r, hrun, -, hjobs⟩ := exists_run_of_le h defaults options
  obtain ⟨k, htake, hk⟩ := exists_compileChunks_eq_take defaults options
    (chunkSize_pos clauses.length (workerCount options.threads)) (workerCount options.threads)
    clauses
  exact ⟨r, k, hrun, hjobs.trans htake, hk⟩

/-- **The verdict does not depend on where a batch stops.** -/
theorem exists_run_verdict {clauses : List ClauseInput} (h : clauses.length ≤ 100000)
    (defaults : Defaults) (options : Options) :
    ∃ r, run defaults options clauses = .ok r ∧
      (r.failed = 0 ↔
        ∀ clause ∈ clauses, ∃ spec, compileClause options.directory defaults clause.text = .ok spec) ∧
      r.failures.head? =
        (clauses.map (ClauseInput.outcome defaults options.directory)).findSome? failure? := by
  obtain ⟨r, k, hrun, hjobs, hk⟩ := exists_run_take h defaults options
  refine ⟨r, hrun, ?_, ?_⟩
  · rw [Run.failed, hjobs, countP_failed_take_eq_zero_iff hk, findIdx_failed_jobsFrom,
      length_jobsFrom, List.findIdx_eq_length]
    refine forall₂_congr fun clause _ => ?_
    unfold ClauseInput.fails
    cases compileClause options.directory defaults clause.text <;>
      simp [Except.isOk, Except.toBool]
  · rw [failures_eq, List.head?_filterMap, Run.outcomes, hjobs, findSome?_failure?_take hk,
      map_outcome_jobsFrom]

/-- The batch command succeeds when no clause of its file fails. -/
theorem exit_batchResponse_eq_zero_iff (i : Command.Invocation) (s : Command.Surroundings)
    (log : Session) (defaults : Defaults) {file : String} (threads : Option Nat)
    (failFast : Bool) {clauses : List ClauseInput}
    (hread : readClauses s.files file = .ok clauses) {r : Run}
    (hrun : run defaults ⟨threads.getD s.threads, failFast, i.context⟩ clauses = .ok r) :
    (i.batchResponse s log defaults file threads failFast).exit = 0 ↔ r.failed = 0 := by
  unfold Command.Invocation.batchResponse
  simp only [hread, hrun]
  split <;> simp_all

/-- What it is for a batch to have stopped behind its first `m` clauses. -/
structure StopsAt (defaults : Defaults) (options : Options) (clauses : List ClauseInput) (m : Nat)
    (r : Run) : Prop where
  /-- It comes to the outcomes of these clauses. -/
  outcomes : r.outcomes = (clauses.map (ClauseInput.outcome defaults options.directory)).take m
  /-- There are as many of them. -/
  length : r.outcomes.length = m
  /-- The other clauses are skipped. -/
  skipped : r.skipped + m = clauses.length
  /-- Each of the first clauses compiles or fails. -/
  counts : r.successful + r.failed = m
  /-- The failures are those among the outcomes, in order. -/
  failures : r.failures = r.outcomes.filterMap failure?
  /-- Every schedule of the workers comes to this. -/
  schedules : ∀ jobs, Executes defaults options clauses jobs ↔ jobs = r.jobs

/-- **Where a batch stops, and that its verdict does not depend on it.** A batch of at most 100000
clauses that is to stop at a failure comes, under any schedule of its workers, to the first
`reach` outcomes of the batch that does not stop; the rest is skipped. With any number of workers,
stopping or not, no clause fails exactly when each one compiles by itself, the first failure is the
first of all clauses, and the batch command ends with success exactly when all compile. -/
theorem run_failFast_eq_take (defaults : Defaults) (options : Options)
    (clauses : List ClauseInput) (hlen : clauses.length ≤ 100000) :
    (options.failFast = true →
      ∃ r, run defaults options clauses = .ok r ∧
        StopsAt defaults options clauses
          (reach (ClauseInput.fails defaults options.directory) options.threads clauses) r) ∧
    (∃ r, run defaults options clauses = .ok r ∧
      (r.failed = 0 ↔ ∀ clause ∈ clauses,
        ∃ spec, compileClause options.directory defaults clause.text = .ok spec) ∧
      r.failures.head? =
        (clauses.map (ClauseInput.outcome defaults options.directory)).findSome? failure?) ∧
    ∀ (i : Command.Invocation) (s : Command.Surroundings) (log : Session) (file : String)
      (threads : Option Nat) (failFast : Bool), readClauses s.files file = .ok clauses →
        ((i.batchResponse s log defaults file threads failFast).exit = 0 ↔
          ∀ clause ∈ clauses,
            ∃ spec, compileClause i.context defaults clause.text = .ok spec) := by
  refine ⟨fun hstop => ?_, exists_run_verdict hlen defaults options,
    fun i s log file threads failFast hread => ?_⟩
  · obtain ⟨r, hrun, htotal, hjobs⟩ := exists_run_of_le hlen defaults options
    have hexec (jobs : List Job) : Executes defaults options clauses jobs ↔ jobs = r.jobs := by
      rw [hjobs]
      exact execution_iff
    rw [compileChunks_eq_take_reach defaults hstop] at hjobs
    have hle := reach_le (ClauseInput.fails defaults options.directory) options.threads clauses
    have houtcomes : r.outcomes =
        (clauses.map (ClauseInput.outcome defaults options.directory)).take
          (reach (ClauseInput.fails defaults options.directory) options.threads clauses) := by
      rw [Run.outcomes, hjobs, List.map_take, map_outcome_jobsFrom]
    have hcount : r.outcomes.length =
        reach (ClauseInput.fails defaults options.directory) options.threads clauses := by
      rw [houtcomes, List.length_take, List.length_map, Nat.min_eq_left hle]
    refine ⟨r, hrun, houtcomes, hcount, ?_, ?_, failures_eq r, hexec⟩
    · rw [Run.outcomes, List.length_map] at hcount
      rw [Run.skipped, htotal, hcount, Nat.sub_add_cancel hle]
    · rw [successful_add_failed, hcount]
  · obtain ⟨r, hrun, hverdict, -⟩ :=
      exists_run_verdict hlen defaults ⟨threads.getD s.threads, failFast, i.context⟩
    rw [exit_batchResponse_eq_zero_iff i s log defaults threads failFast hread hrun, hverdict]

/-- One worker stops after the second clause of `mixedBatch` and skips the third. -/
theorem run_failFast_mixedBatch :
    mixedBatch.length ≤ 100000 ∧
      ∃ r, run .builtin ⟨1, true, none⟩ mixedBatch = .ok r ∧ r.outcomes.length = 2 ∧
        r.skipped + 2 = 3 ∧ r.successful + r.failed = 2 := by
  refine ⟨by decide, ?_⟩
  obtain ⟨r, hrun, hstops⟩ :=
    (run_failFast_eq_take .builtin ⟨1, true, none⟩ mixedBatch (by decide)).1 rfl
  have hreach : reach (ClauseInput.fails .builtin none) 1 mixedBatch = 2 := by decide +kernel
  rw [hreach] at hstops
  exact ⟨r, hrun, hstops.length, hstops.skipped, hstops.counts⟩

end Batch
end ImageCheck
