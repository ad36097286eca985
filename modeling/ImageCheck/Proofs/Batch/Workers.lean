/-
# Workers side by side

`SPEC_FULL` §5; the workers that `compile_chunk_parallel` starts and joins.

`compileSlices` puts the slices of a chunk together as if they were compiled one
after another. Here they are compiled side by side: a `Team` starts one worker for
each slice, the workers compile clause by clause in any order, and when all are
started they are joined in the order of their slices, each as soon as it is done.

| step | who | what happens |
| --- | --- | --- |
| `start` | the team | the worker of the next slice begins |
| `compile` | any worker that was started | it compiles its next clause |
| `join` | the team, all started | the jobs of the first worker are taken over |

`Step.jobs_eq` is the invariant: whatever step is taken, the jobs that a team will
have brought home in the end stay the same. `wellFounded_step` and
`halted_iff` say that every schedule ends, and only when all is joined.
`execution_iff` lifts this to a whole batch: any schedule of any of its chunks leads
to the jobs of `compileChunks`.
-/

import ImageCheck.Proofs.Batch.Chunks
import Mathlib.Algebra.Ring.Nat
import Mathlib.Logic.Relation

namespace ImageCheck
namespace Batch

/-- A worker with its slice. -/
structure Worker where
  /-- The place of its next clause in the batch. -/
  next : Nat
  /-- The clauses not compiled yet. -/
  left : List ClauseInput
  /-- What came of the others, in order. -/
  done : List Job

/-- The workers of a chunk, in the order of their slices. -/
structure Team where
  /-- The workers not started yet. -/
  waiting : List Worker
  /-- The workers started and not joined yet. -/
  started : List Worker
  /-- The jobs of the workers that were joined. -/
  joined : List Job

namespace Team

/-- A team before it starts its first worker: one worker for each slice of a chunk. -/
def ofChunk (workers first : Nat) (chunk : List ClauseInput) : Team :=
  let size := sliceSize chunk.length workers
  ⟨(chunksOf size chunk).zipIdx.map fun slice => ⟨first + slice.2 * size, slice.1, []⟩, [], []⟩

/-- A bound on the steps that are left: a worker is started, has its clauses, and is joined. -/
def work (t : Team) : Nat :=
  2 * t.waiting.length + t.started.length +
    ((t.started ++ t.waiting).map fun w => w.left.length).sum

end Team

section Steps

variable (defaults : Defaults) (options : Options)

/-- What a worker will have done when its slice is compiled. -/
def Worker.jobs (w : Worker) : List Job :=
  w.done ++ jobsFrom defaults options w.next w.left

/-- What a team will have brought home when all its workers are joined. -/
def Team.jobs (t : Team) : List Job :=
  t.joined ++ (t.started ++ t.waiting).flatMap (Worker.jobs defaults options)

/-- One step of a team, in any of the orders that workers side by side can take. -/
inductive Step : Team → Team → Prop
  | start (w : Worker) (waiting started : List Worker) (joined : List Job) :
      Step ⟨w :: waiting, started, joined⟩ ⟨waiting, started ++ [w], joined⟩
  | compile (waiting before after : List Worker) (joined : List Job) (next : Nat)
      (clause : ClauseInput) (left : List ClauseInput) (done : List Job) :
      Step ⟨waiting, before ++ ⟨next, clause :: left, done⟩ :: after, joined⟩
        ⟨waiting,
          before ++ ⟨next + 1, left, done ++ [compileJob defaults options next clause]⟩ :: after,
          joined⟩
  | join (next : Nat) (done : List Job) (started : List Worker) (joined : List Job) :
      Step ⟨[], ⟨next, [], done⟩ :: started, joined⟩ ⟨[], started, joined ++ done⟩

/-- A team that can take no step. -/
def Halted (t : Team) : Prop := ¬ ∃ u, Step defaults options t u

variable {defaults options} {t u : Team}

/-- **A step changes nothing about what the team will bring home.** -/
theorem Step.jobs_eq (h : Step defaults options t u) :
    u.jobs defaults options = t.jobs defaults options := by
  cases h with
  | start w waiting started joined => simp [Team.jobs]
  | compile waiting before after joined next clause left done =>
    simp [Team.jobs, Worker.jobs, jobsFrom]
  | join next done started joined => simp [Team.jobs, Worker.jobs, jobsFrom]

/-- A step of any worker, a start and a join included, leaves less to do. -/
theorem Step.work_lt (h : Step defaults options t u) : u.work < t.work := by
  cases h with
  | start w waiting started joined =>
    simp only [Team.work, List.length_cons, List.length_append, List.map_append, List.sum_append,
      List.map_cons, List.sum_cons, List.map_nil, List.sum_nil, List.length_nil]
    omega
  | compile waiting before after joined next clause left done =>
    simp only [Team.work, List.length_cons, List.length_append, List.map_append, List.sum_append,
      List.map_cons, List.sum_cons]
    omega
  | join next done started joined =>
    simp only [Team.work, List.length_cons, List.map_append, List.sum_append, List.map_cons,
      List.sum_cons, List.length_nil, List.map_nil, List.sum_nil]
    omega

variable (defaults options) in
/-- **No schedule goes on for ever.** -/
theorem wellFounded_step : WellFounded fun t u : Team => Step defaults options u t :=
  Subrelation.wf Step.work_lt (measure Team.work).wf

/-- A team stops only when every worker has been started, has compiled its slice and has been
joined. -/
theorem halted_iff : Halted defaults options t ↔ t.waiting = [] ∧ t.started = [] := by
  obtain ⟨waiting, started, joined⟩ := t
  constructor
  · intro h
    cases waiting with
    | cons w waiting => exact absurd ⟨_, .start w waiting started joined⟩ h
    | nil =>
      cases started with
      | nil => exact ⟨rfl, rfl⟩
      | cons w started =>
        obtain ⟨next, left, done⟩ := w
        cases left with
        | nil => exact absurd ⟨_, .join next done started joined⟩ h
        | cons clause left =>
          exact absurd ⟨_, .compile [] [] started joined next clause left done⟩ h
  · rintro ⟨hwaiting, hstarted⟩ ⟨u, hstep⟩
    cases hstep <;> simp_all

variable (defaults options) in
/-- Every schedule of a team, up to whatever point, can be brought to its end. -/
theorem exists_halted (t : Team) :
    ∃ u, Relation.ReflTransGen (Step defaults options) t u ∧ Halted defaults options u := by
  induction t using (wellFounded_step defaults options).induction with
  | h t ih =>
    by_cases h : ∃ u, Step defaults options t u
    · obtain ⟨u, hstep⟩ := h
      obtain ⟨v, hrun, hend⟩ := ih u hstep
      exact ⟨v, hrun.head hstep, hend⟩
    · exact ⟨t, .refl, h⟩

/-- A whole schedule changes nothing about what the team will bring home. -/
theorem jobs_eq_of_reflTransGen (h : Relation.ReflTransGen (Step defaults options) t u) :
    u.jobs defaults options = t.jobs defaults options := by
  induction h with
  | refl => rfl
  | tail _ hstep ih => rw [hstep.jobs_eq, ih]

variable (defaults options) in
/-- The jobs of a team at its beginning are those of its slices one after another. -/
theorem jobs_ofChunk (workers first : Nat) (chunk : List ClauseInput) :
    (Team.ofChunk workers first chunk).jobs defaults options =
      compileSlices defaults options workers first chunk := by
  simp [Team.ofChunk, Team.jobs, Worker.jobs, compileSlices, compileSlice_eq, List.flatMap_map]

/-- **Any schedule compiles the chunk.** -/
theorem joined_eq_of_halted {workers first : Nat} {chunk : List ClauseInput}
    (hrun : Relation.ReflTransGen (Step defaults options) (.ofChunk workers first chunk) t)
    (hend : Halted defaults options t) :
    t.joined = compileSlices defaults options workers first chunk := by
  obtain ⟨hwaiting, hstarted⟩ := halted_iff.1 hend
  have hjobs := jobs_eq_of_reflTransGen hrun
  rw [jobs_ofChunk] at hjobs
  simpa [Team.jobs, hwaiting, hstarted] using hjobs

end Steps

/-! ### A whole batch -/

section Execution

variable (defaults : Defaults) (options : Options)

/-- What a chunk can come to: one worker compiles it alone, several do under some schedule. -/
inductive ChunkExecution (workers first : Nat) (chunk : List ClauseInput) : List Job → Prop
  | alone (h : workers = 1) :
      ChunkExecution workers first chunk
        (compileSlice defaults options options.failFast first chunk)
  | team {t : Team} (h : workers ≠ 1)
      (hrun : Relation.ReflTransGen (Step defaults options) (.ofChunk workers first chunk) t)
      (hend : Halted defaults options t) :
      ChunkExecution workers first chunk t.joined

/-- What chunks with their numbers can come to, one chunk after another; a batch that is to stop at
a failure goes no further than a chunk with one. -/
inductive Execution (workers size : Nat) : List (List ClauseInput × Nat) → List Job → Prop
  | nil : Execution workers size [] []
  | stop {chunk : List ClauseInput} {number : Nat} {jobs : List Job}
      (rest : List (List ClauseInput × Nat))
      (h : ChunkExecution defaults options workers (number * size) chunk jobs)
      (hstop : options.failFast = true) (hfailed : ∃ job ∈ jobs, job.failed = true) :
      Execution workers size ((chunk, number) :: rest) jobs
  | next {chunk : List ClauseInput} {number : Nat} {jobs more : List Job}
      {rest : List (List ClauseInput × Nat)}
      (h : ChunkExecution defaults options workers (number * size) chunk jobs)
      (hnext : options.failFast = true → ∀ job ∈ jobs, job.failed = false)
      (hrest : Execution workers size rest more) :
      Execution workers size ((chunk, number) :: rest) (jobs ++ more)

/-- What a batch of clauses can come to, under any schedule of its workers. -/
def Executes (clauses : List ClauseInput) (jobs : List Job) : Prop :=
  let workers := workerCount options.threads
  let size := chunkSize clauses.length workers
  Execution defaults options workers size (chunksOf size clauses).zipIdx jobs

variable {defaults options}

/-- Every schedule of a chunk comes to `compileChunk`, and some does. -/
theorem chunkExecution_iff {workers first : Nat} {chunk : List ClauseInput} {jobs : List Job} :
    ChunkExecution defaults options workers first chunk jobs ↔
      jobs = compileChunk defaults options workers first chunk := by
  unfold compileChunk
  constructor
  · intro h
    cases h with
    | alone h => rw [if_pos h]
    | team h hrun hend => rw [if_neg h, joined_eq_of_halted hrun hend]
  · rintro rfl
    by_cases h : workers = 1
    · rw [if_pos h]
      exact .alone h
    · obtain ⟨t, hrun, hend⟩ := exists_halted defaults options (.ofChunk workers first chunk)
      rw [if_neg h, ← joined_eq_of_halted hrun hend]
      exact .team h hrun hend

/-- **Every schedule comes to the same jobs**, and there is one that does. -/
theorem execution_iff {workers size : Nat} {chunks : List (List ClauseInput × Nat)}
    {jobs : List Job} :
    Execution defaults options workers size chunks jobs ↔
      jobs = compileChunks defaults options workers size chunks := by
  induction chunks generalizing jobs with
  | nil =>
    constructor
    · rintro ⟨⟩
      rfl
    · rintro rfl
      exact .nil
  | cons chunk rest ih =>
    obtain ⟨chunk, number⟩ := chunk
    rw [compileChunks]
    constructor
    · intro h
      cases h with
      | stop rest h hstop hfailed =>
        obtain rfl := chunkExecution_iff.1 h
        rw [if_pos (by simpa [hstop] using hfailed)]
      | next h hnext hrest =>
        obtain rfl := chunkExecution_iff.1 h
        rw [if_neg (by simpa using hnext), ih.1 hrest]
    · rintro rfl
      split
      · rename_i hstop
        rw [Bool.and_eq_true, List.any_eq_true] at hstop
        exact .stop rest (chunkExecution_iff.2 rfl) hstop.1 hstop.2
      · rename_i hnext
        exact .next (chunkExecution_iff.2 rfl) (by simpa using hnext) (ih.2 rfl)

end Execution
end Batch
end ImageCheck
