/-
# Clauses compiled under their own names

`SPEC_FULL` §5; the threads of `compile_batch` and `compile_chunk_parallel`.

A chunk is compiled by threads: one worker is the thread of the batch itself, which may
have anything set on it when the chunk begins, and several are new threads, one for each
slice. The chunks follow one another.

| level | clauses that are compiled | any schedule visits these |
| --- | --- | --- |
| slice | `reached` | `Crew.Step.perm` |
| chunk | `reachedInChunk` | `perm_of_chunkVisits` |
| batch | `reachedInAll` | `perm_of_batchVisits` |

Where a batch goes on to the next chunk, the one before was compiled to its end
(`reachedInChunk_eq_self`), so the places of the clauses run on from chunk to chunk.
`compileChunks_eq_jobsFrom` says that these clauses are the ones that `Batch.run` compiles,
and `map_subject_ownVisits` that its jobs are about what was set at the visits.
`CompiledOnce` is the result.
-/

import ImageCheck.Proofs.Batch.FailFast
import ImageCheck.Proofs.Batch.Pieces
import ImageCheck.Proofs.Batch.Threads

namespace ImageCheck
namespace Batch

/-! ### Chunks -/

section Chunks

variable (fails : ClauseInput → Bool) (options : Options) (workers : Nat)

/-- The threads of a chunk at its beginning: that of the batch, with something set on it or nothing,
or a new one for each slice. New threads go through their slices to the end. -/
def threadsOf (subject : Option Subject) (chunk : Piece) : List Thread :=
  if workers = 1 then [⟨options.failFast, subject, .ready chunk.first chunk.clauses⟩]
  else (chunk.slices workers).map fun slice => ⟨false, none, .ready slice.first slice.clauses⟩

/-- The visits that some schedule of a chunk makes. -/
def ChunkVisits (chunk : Piece) (visits : List Visit) : Prop :=
  ∃ (subject : Option Subject) (c : Crew),
    Relation.ReflTransGen (Crew.Step fails) ⟨threadsOf options workers subject chunk, []⟩ c ∧
      c.Halted fails ∧ c.visits = visits

/-- The clauses of a chunk that are compiled. -/
def reachedInChunk (chunk : List ClauseInput) : List ClauseInput :=
  if workers = 1 then reached fails options.failFast chunk else chunk

variable {fails options workers}

/-- The threads of a chunk, each left alone, visit the clauses that are compiled, under their own
labels and places. -/
theorem visits_threadsOf (subject : Option Subject) (chunk : Piece) :
    (threadsOf options workers subject chunk).flatMap (Thread.visits fails) =
      ownVisits chunk.first (reachedInChunk fails options workers chunk.clauses) := by
  unfold threadsOf reachedInChunk
  split
  · exact List.flatMap_singleton _ _
  · -- the slices, numbered from their own places, are numbered through
    have hslices := (tiles_slices workers chunk).flatMap_zipIdx
    simp only [List.flatMap_map, Thread.visits, reached_false, ownVisits]
    rw [← hslices, List.map_flatMap]

/-- **All schedules of a chunk make the same visits**, each clause under its own label and place. -/
theorem perm_of_chunkVisits {chunk : Piece} {visits : List Visit}
    (h : ChunkVisits fails options workers chunk visits) :
    visits.Perm (ownVisits chunk.first (reachedInChunk fails options workers chunk.clauses)) := by
  obtain ⟨subject, c, hrun, hend, rfl⟩ := h
  have hperm := Crew.perm_of_reflTransGen hrun
  rwa [hend.total_eq, Crew.total, List.nil_append, visits_threadsOf] at hperm

variable (fails options workers) in
/-- Some schedule brings a chunk to its end. -/
theorem exists_chunkVisits (chunk : Piece) :
    ∃ visits, ChunkVisits fails options workers chunk visits := by
  obtain ⟨c, hrun, hend⟩ := Crew.exists_halted fails ⟨threadsOf options workers none chunk, []⟩
  exact ⟨c.visits, none, c, hrun, hend, rfl⟩

/-- A chunk is compiled from its beginning on. -/
theorem isPrefix_reachedInChunk (chunk : List ClauseInput) :
    reachedInChunk fails options workers chunk <+: chunk := by
  unfold reachedInChunk
  split
  · exact isPrefix_reached _ _
  · exact List.prefix_refl _

/-- A chunk that the batch goes on from is compiled to its end. -/
theorem reachedInChunk_eq_self {chunk : List ClauseInput}
    (h : ¬ (options.failFast && (reachedInChunk fails options workers chunk).any fails) = true) :
    reachedInChunk fails options workers chunk = chunk := by
  unfold reachedInChunk at h ⊢
  by_cases hone : workers = 1
  · rw [if_pos hone] at h ⊢
    exact reached_eq_self h
  · rw [if_neg hone]

end Chunks

/-! ### Batches -/

section Batches

variable (fails : ClauseInput → Bool) (options : Options) (workers : Nat)

/-- The visits that some schedule of chunks makes, one chunk after another; a batch that is to stop
at a failure goes no further than a chunk with one. -/
inductive BatchVisits : List Piece → List Visit → Prop
  | nil : BatchVisits [] []
  | stop {chunk : Piece} {visits : List Visit} (rest : List Piece)
      (h : ChunkVisits fails options workers chunk visits)
      (hstop : options.failFast = true) (hfails : ∃ visit ∈ visits, fails visit.clause = true) :
      BatchVisits (chunk :: rest) visits
  | next {chunk : Piece} {visits more : List Visit} {rest : List Piece}
      (h : ChunkVisits fails options workers chunk visits)
      (hnext : options.failFast = true → ∀ visit ∈ visits, fails visit.clause = false)
      (hrest : BatchVisits rest more) :
      BatchVisits (chunk :: rest) (visits ++ more)

/-- The clauses of chunks that are compiled. -/
def reachedInAll : List Piece → List ClauseInput
  | [] => []
  | chunk :: rest =>
    let clauses := reachedInChunk fails options workers chunk.clauses
    if options.failFast && clauses.any fails then clauses else clauses ++ reachedInAll rest

variable {fails options workers}

/-- A batch is compiled from its beginning on. -/
theorem isPrefix_reachedInAll {start : Nat} {clauses : List ClauseInput} {pieces : List Piece}
    (h : Tiles start clauses pieces) :
    reachedInAll fails options workers pieces <+: clauses := by
  induction h with
  | nil start => exact List.prefix_refl _
  | @cons start clauses rest pieces hne hrest ih =>
    rw [reachedInAll]
    split
    · exact (isPrefix_reachedInChunk clauses).trans (List.prefix_append _ _)
    · rename_i hnext
      rw [reachedInChunk_eq_self hnext]
      exact (List.prefix_append_right_inj clauses).2 ih

/-- Whether a clause fails can be told from the visits of a chunk. -/
theorem exists_fails_iff {chunk : Piece} {visits : List Visit}
    (h : ChunkVisits fails options workers chunk visits) :
    (∃ visit ∈ visits, fails visit.clause = true) ↔
      (reachedInChunk fails options workers chunk.clauses).any fails = true := by
  have hclauses : (visits.map Visit.clause).Perm
      (reachedInChunk fails options workers chunk.clauses) := by
    have hmap := (perm_of_chunkVisits h).map Visit.clause
    rwa [ownVisits, List.map_map, show Visit.clause ∘ Visit.own = Prod.fst from rfl,
      List.zipIdx_map_fst] at hmap
  rw [← hclauses.any_eq, List.any_map, List.any_eq_true]
  rfl

/-- **All schedules of a batch make the same visits.** -/
theorem perm_of_batchVisits {start : Nat} {clauses : List ClauseInput} {pieces : List Piece}
    {visits : List Visit} (htiles : Tiles start clauses pieces)
    (h : BatchVisits fails options workers pieces visits) :
    visits.Perm (ownVisits start (reachedInAll fails options workers pieces)) := by
  induction htiles generalizing visits with
  | nil start =>
    cases h
    exact List.Perm.refl _
  | @cons start clauses rest pieces hne hrest ih =>
    rw [reachedInAll]
    cases h with
    | stop _ h hstop hfails =>
      have hends : (options.failFast &&
          (reachedInChunk fails options workers clauses).any fails) = true := by
        rw [hstop, Bool.true_and]
        exact (exists_fails_iff h).1 hfails
      rw [if_pos hends]
      exact perm_of_chunkVisits h
    | next h hnext hrest =>
      have hgoes : ¬ (options.failFast &&
          (reachedInChunk fails options workers clauses).any fails) = true := by
        rw [Bool.and_eq_true, ← exists_fails_iff h]
        rintro ⟨hstop, visit, hmem, hfails⟩
        rw [hnext hstop visit hmem] at hfails
        cases hfails
      have hchunk := perm_of_chunkVisits h
      rw [reachedInChunk_eq_self hgoes] at hchunk
      rw [if_neg hgoes, reachedInChunk_eq_self hgoes, ownVisits_append]
      exact hchunk.append (ih hrest)

variable (fails options workers) in
/-- Some schedule brings a batch to its end. -/
theorem exists_batchVisits (pieces : List Piece) :
    ∃ visits, BatchVisits fails options workers pieces visits := by
  induction pieces with
  | nil => exact ⟨[], .nil⟩
  | cons chunk rest ih =>
    obtain ⟨visits, h⟩ := exists_chunkVisits fails options workers chunk
    obtain ⟨more, hrest⟩ := ih
    by_cases hstop : options.failFast = true ∧ ∃ visit ∈ visits, fails visit.clause = true
    · exact ⟨visits, .stop rest h hstop.1 hstop.2⟩
    · refine ⟨visits ++ more, .next h (fun hfast visit hmem => ?_) hrest⟩
      by_contra hfails
      exact hstop ⟨hfast, visit, hmem, by simpa using hfails⟩

end Batches

/-! ### What is compiled -/

section Compiled

variable (defaults : Defaults) (options : Options)

/-- A job fails exactly if its clause does by itself. -/
theorem failed_compileJob (index : Nat) (clause : ClauseInput) :
    (compileJob defaults options index clause).failed =
      clause.fails defaults options.directory := by
  rw [Job.failed_eq, outcome_compileJob]
  rfl

/-- Clauses compiled in one go are compiled one by one, each at its place. -/
theorem jobsFrom_eq_map (first : Nat) (clauses : List ClauseInput) :
    jobsFrom defaults options first clauses =
      (clauses.zipIdx first).map fun clause => compileJob defaults options clause.2 clause.1 := by
  induction clauses generalizing first with
  | nil => rfl
  | cons clause rest ih => rw [jobsFrom, ih, List.zipIdx_cons, List.map_cons]

/-- Whether a job fails can be told from the clauses. -/
theorem any_failed_jobsFrom (first : Nat) (clauses : List ClauseInput) :
    (jobsFrom defaults options first clauses).any Job.failed =
      clauses.any (ClauseInput.fails defaults options.directory) := by
  induction clauses generalizing first with
  | nil => rfl
  | cons clause rest ih => rw [jobsFrom, List.any_cons, List.any_cons, failed_compileJob, ih]

/-- A slice is compiled as far as its thread reaches. -/
theorem compileSlice_eq_jobsFrom (stop : Bool) (first : Nat) (clauses : List ClauseInput) :
    compileSlice defaults options stop first clauses =
      jobsFrom defaults options first
        (reached (ClauseInput.fails defaults options.directory) stop clauses) := by
  induction clauses generalizing first with
  | nil => rfl
  | cons clause rest ih =>
    rw [compileSlice, reached, failed_compileJob, ih]
    split <;> rfl

/-- A chunk is compiled as far as its threads reach. -/
theorem compileChunk_eq_jobsFrom (workers first : Nat) (chunk : List ClauseInput) :
    compileChunk defaults options workers first chunk =
      jobsFrom defaults options first
        (reachedInChunk (ClauseInput.fails defaults options.directory) options workers chunk) := by
  unfold compileChunk reachedInChunk
  split
  · exact compileSlice_eq_jobsFrom defaults options _ first chunk
  · exact compileSlices_eq defaults options workers first chunk

/-- The jobs of two lists of clauses are those of the first and then those of the second, whose
places go on. -/
theorem jobsFrom_append (first : Nat) (clauses more : List ClauseInput) :
    jobsFrom defaults options first (clauses ++ more) =
      jobsFrom defaults options first clauses ++
        jobsFrom defaults options (first + clauses.length) more := by
  rw [jobsFrom_eq_map, List.zipIdx_append, List.map_append, ← jobsFrom_eq_map, ← jobsFrom_eq_map]

/-- The chunks that lie end to end are compiled as far as the batch reaches. -/
theorem compileChunks_eq_jobsFrom {workers size start : Nat} {clauses : List ClauseInput}
    {numbered : List (List ClauseInput × Nat)}
    (h : Tiles start clauses (numbered.map (Piece.numbered 0 size))) :
    compileChunks defaults options workers size numbered =
      jobsFrom defaults options start
        (reachedInAll (ClauseInput.fails defaults options.directory) options workers
          (numbered.map (Piece.numbered 0 size))) := by
  induction numbered generalizing start clauses with
  | nil => rfl
  | cons piece numbered ih =>
    obtain ⟨chunk, number⟩ := piece
    cases h with
    | cons hne hrest =>
      have hmore := ih hrest
      rw [compileChunks, List.map_cons, reachedInAll, compileChunk_eq_jobsFrom, hmore,
        any_failed_jobsFrom]
      simp only [Piece.numbered, Nat.zero_add]
      split
      · rfl
      · rename_i hnext
        rw [reachedInChunk_eq_self hnext, jobsFrom_append]

end Compiled

/-! ### The result -/

/-- A chunk has no more threads than there are workers. -/
theorem length_threadsOf_le {workers : Nat} (hworkers : 0 < workers) (options : Options)
    (subject : Option Subject) (chunk : Piece) :
    (threadsOf options workers subject chunk).length ≤ workers := by
  unfold threadsOf
  split
  · exact hworkers
  · rw [List.length_map]
    exact length_slices_le hworkers chunk

/-- The clauses that a batch reaches are as many of the first as it has jobs, and the jobs are
theirs. -/
theorem exists_run_reached {clauses : List ClauseInput} (h : clauses.length ≤ 100000)
    (defaults : Defaults) (options : Options) :
    ∃ r, run defaults options clauses = .ok r ∧ r.workers = workerCount options.threads ∧
      Tiles 0 clauses (chunks r.chunk clauses) ∧
      r.jobs = jobsFrom defaults options 0 (clauses.take r.jobs.length) ∧
      reachedInAll (ClauseInput.fails defaults options.directory) options r.workers
        (chunks r.chunk clauses) = clauses.take r.jobs.length := by
  refine ⟨_, if_neg (Nat.not_lt.2 h), rfl, ?_⟩
  generalize workerCount options.threads = workers
  have htiles := tiles_chunks (chunkSize_pos clauses.length workers) clauses
  generalize chunkSize clauses.length workers = size at htiles
  have hjobs : compileChunks defaults options workers size (chunksOf size clauses).zipIdx =
      jobsFrom defaults options 0 (reachedInAll (ClauseInput.fails defaults options.directory)
        options workers (chunks size clauses)) :=
    compileChunks_eq_jobsFrom defaults options htiles
  have hlength := congrArg List.length hjobs
  rw [length_jobsFrom] at hlength
  have hprefix : reachedInAll (ClauseInput.fails defaults options.directory) options workers
      (chunks size clauses) <+: clauses := isPrefix_reachedInAll htiles
  have hreached := List.prefix_iff_eq_take.1 hprefix
  rw [← hlength] at hreached
  exact ⟨htiles, hjobs.trans (by rw [← hreached]), hreached⟩

/-- What it is for a batch that came to `r` to have compiled clauses once each, under their own
labels and places. -/
structure CompiledOnce (defaults : Defaults) (options : Options) (clauses : List ClauseInput)
    (r : Run) : Prop where
  /-- There are as many workers as are asked for, within 1 and 8. -/
  workers : r.workers = max 1 (min 8 options.threads)
  /-- The chunks divide the batch. -/
  partition_chunks : Partition 0 clauses (chunks r.chunk clauses)
  /-- The slices of a chunk divide the chunk. -/
  partition_slices : ∀ chunk ∈ chunks r.chunk clauses,
    Partition chunk.first chunk.clauses (chunk.slices r.workers)
  /-- The slices of all chunks divide the batch again. -/
  partition_all : Partition 0 clauses ((chunks r.chunk clauses).flatMap (Piece.slices r.workers))
  /-- A chunk has no more threads than there are workers, whatever was set on the first. -/
  threads_le : ∀ chunk ∈ chunks r.chunk clauses, ∀ subject,
    (threadsOf options r.workers subject chunk).length ≤ r.workers
  /-- A beginning of the clauses is compiled, each as it would be by itself. -/
  jobs : r.jobs = (clauses.take r.jobs.length).zipIdx.map
    fun clause => compileJob defaults options clause.2 clause.1
  /-- What came of a clause goes under its label and its place in the batch. -/
  subjects : r.jobs.map Job.subject = (clauses.take r.jobs.length).zipIdx.map
    fun clause => ⟨clause.1.label, clause.2⟩
  /-- Some schedule brings the batch to its end. -/
  ends : ∃ visits, BatchVisits (ClauseInput.fails defaults options.directory) options r.workers
    (chunks r.chunk clauses) visits
  /-- Every schedule visits the clauses that are compiled once each, under their own labels and
  places. -/
  visits : ∀ visits, BatchVisits (ClauseInput.fails defaults options.directory) options r.workers
    (chunks r.chunk clauses) visits → visits.Perm (ownVisits 0 (clauses.take r.jobs.length))
  /-- What was set when a clause was compiled is what its outcome goes under. -/
  visits_subjects : ∀ visits, BatchVisits (ClauseInput.fails defaults options.directory) options
    r.workers (chunks r.chunk clauses) visits →
      (visits.map Visit.subject).Perm (r.jobs.map fun job => some job.subject)

/-- The jobs of clauses are about their labels and places. -/
theorem map_subject_jobsFrom (defaults : Defaults) (options : Options) (first : Nat)
    (clauses : List ClauseInput) :
    (jobsFrom defaults options first clauses).map Job.subject =
      (clauses.zipIdx first).map fun clause => ⟨clause.1.label, clause.2⟩ := by
  rw [jobsFrom_eq_map, List.map_map]
  rfl

/-- What is set at the visits of clauses is what their jobs are about. -/
theorem map_subject_ownVisits (defaults : Defaults) (options : Options) (first : Nat)
    (clauses : List ClauseInput) :
    (ownVisits first clauses).map Visit.subject =
      (jobsFrom defaults options first clauses).map fun job => some job.subject := by
  rw [ownVisits, jobsFrom_eq_map, List.map_map, List.map_map]
  rfl

/-- **Each clause is compiled once, under its own label and place.** A batch of at most 100000
clauses has as many workers as are asked for, within 1 and 8. Its chunks divide the batch, the
slices of a chunk divide the chunk, and the slices of all chunks divide the batch again; a chunk has
no more threads than there are workers. A beginning of the clauses is compiled, and whatever the
workers are, one or several, and in whatever order they go, these clauses are visited once each,
under their own labels and their places in the whole batch, and so are their outcomes. Some order
brings the batch to its end. -/
theorem run_partition (defaults : Defaults) (options : Options) (clauses : List ClauseInput)
    (hlen : clauses.length ≤ 100000) :
    ∃ r, run defaults options clauses = .ok r ∧ CompiledOnce defaults options clauses r := by
  obtain ⟨r, hrun, hworkers, htiles, hjobs, hreached⟩ := exists_run_reached hlen defaults options
  have hpos : 0 < r.workers := by
    rw [hworkers, workerCount]
    omega
  have hvisits (visits : List Visit)
      (h : BatchVisits (ClauseInput.fails defaults options.directory) options r.workers
        (chunks r.chunk clauses) visits) :
      visits.Perm (ownVisits 0 (clauses.take r.jobs.length)) := by
    rw [← hreached]
    exact perm_of_batchVisits htiles h
  refine ⟨r, hrun, ?_⟩
  constructor
  case workers => exact hworkers
  case partition_chunks => exact htiles.partition
  case partition_slices => exact fun chunk _ => (tiles_slices r.workers chunk).partition
  case partition_all => exact (htiles.flatMap (tiles_slices r.workers)).partition
  case threads_le => exact fun chunk _ subject => length_threadsOf_le hpos options subject chunk
  case jobs =>
    rw [← jobsFrom_eq_map]
    exact hjobs
  case subjects =>
    rw [← map_subject_jobsFrom defaults options, ← hjobs]
  case ends => exact exists_batchVisits _ options _ _
  case visits => exact hvisits
  case visits_subjects =>
    intro visits h
    have hperm := (hvisits visits h).map Visit.subject
    rwa [map_subject_ownVisits defaults options, ← hjobs] at hperm

/-- Two workers share the three clauses of `mixedBatch`, and the second starts at place 2. The batch
is to stop at a failure, but the clause that fails stops neither of them within the chunk. -/
theorem run_partition_mixedBatch :
    mixedBatch.length ≤ 100000 ∧
      (chunks 4 mixedBatch).flatMap (Piece.slices 2) =
        [⟨0, mixedBatch.take 2⟩, ⟨2, mixedBatch.drop 2⟩] ∧
      (∃ r, run .builtin ⟨2, true, none⟩ mixedBatch = .ok r ∧
        r.jobs.map Job.subject = [⟨"a", 0⟩, ⟨"b", 1⟩, ⟨"c", 2⟩]) ∧
      ∀ visits, BatchVisits (ClauseInput.fails .builtin none) ⟨2, true, none⟩ 2
          (chunks 4 mixedBatch) visits →
        visits.Perm
          [⟨some ⟨"a", 0⟩, ⟨"a", "file: a.png"⟩⟩, ⟨some ⟨"b", 1⟩, ⟨"b", "stretch"⟩⟩,
            ⟨some ⟨"c", 2⟩, ⟨"c", "file: c.png, foo: bar"⟩⟩] := by
  obtain ⟨r, hrun, honce⟩ := run_partition .builtin ⟨2, true, none⟩ mixedBatch (by decide)
  have hsizes : (run .builtin ⟨2, true, none⟩ mixedBatch).map
      (fun r => (r.workers, r.chunk, r.jobs.length)) = .ok (2, 4, 3) := by
    decide +kernel
  rw [hrun] at hsizes
  obtain ⟨hworkers, hsizes⟩ := Prod.mk.inj (Except.ok.inj hsizes)
  obtain ⟨hchunk, hjobs⟩ := Prod.mk.inj hsizes
  have hsubjects := honce.subjects
  have hvisits := honce.visits
  rw [hjobs] at hsubjects
  rw [hworkers, hchunk, hjobs] at hvisits
  exact ⟨by decide, by decide +kernel, ⟨r, hrun, hsubjects⟩, hvisits⟩

end Batch
end ImageCheck
