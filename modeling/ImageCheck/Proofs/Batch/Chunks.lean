/-
# Chunks and slices put together again

A batch is cut into chunks and a chunk into slices, each piece with the place of
its first clause. `jobsFrom` compiles a list of clauses in one go, each at its own
place; this module says how the compilation in pieces compares with it.

`chunksOf_eq_cons` is the step: the first piece is the first `size` items, and the
rest is cut the same way. `flatMap_chunksOf` is the run over all pieces: pieces
compiled at the places that their numbers give are the whole list, compiled in one
go. `compileSlice_eq`, `compileSlices_eq` and `compileChunk_eq` then say what a
slice, the slices of a chunk and a chunk come to.
-/

import ImageCheck.Batch.Run
import Mathlib.Data.List.Basic

namespace ImageCheck
namespace Batch

/-! ### Cutting a list -/

section Cutting

variable {α : Type} {size : Nat}

/-- The pieces cut so far stay in front of those to come. -/
theorem chunksFrom_append (done more : List (List α)) (xs : List α) :
    chunksFrom size (done ++ more) xs = more.reverse ++ chunksFrom size done xs := by
  fun_induction chunksFrom size done xs with
  | case1 done => simp [chunksFrom]
  | case2 done x rest ih =>
    rw [chunksFrom]
    exact ih

theorem chunksOf_nil : chunksOf size ([] : List α) = [] := by
  simp [chunksOf, chunksFrom]

/-- The first piece is the first `size` items, and the others are the pieces of the rest. -/
theorem chunksOf_eq_cons (hsize : 0 < size) {xs : List α} (hxs : xs ≠ []) :
    chunksOf size xs = xs.take size :: chunksOf size (xs.drop size) := by
  obtain ⟨n, rfl⟩ : ∃ n, size = n + 1 := ⟨size - 1, by omega⟩
  cases xs with
  | nil => exact absurd rfl hxs
  | cons x rest =>
    unfold chunksOf
    rw [chunksFrom]
    exact chunksFrom_append [] [x :: rest.take n] (rest.drop n)

/-- Pieces shrink the list that is left, so what holds of the empty list and passes from the rest
after a piece to the whole holds of every list. -/
theorem chunks_induction {motive : List α → Prop} (hsize : 0 < size) (nil : motive [])
    (step : ∀ xs, xs ≠ [] → motive (xs.drop size) → motive xs) (xs : List α) : motive xs := by
  by_cases hxs : xs = []
  · rw [hxs]
    exact nil
  · have hpos := List.length_pos_iff.2 hxs
    exact step xs hxs (chunks_induction hsize nil step (xs.drop size))
termination_by xs.length
decreasing_by
  rw [List.length_drop]
  omega

end Cutting

/-! ### Compiling in one go -/

section Compiling

variable (defaults : Defaults) (options : Options)

/-- The clauses of a list compiled, each at its own place, the first at `first`. -/
def jobsFrom (first : Nat) : List ClauseInput → List Job
  | [] => []
  | clause :: rest => compileJob defaults options first clause :: jobsFrom (first + 1) rest

/-- There is one job for each clause. -/
theorem length_jobsFrom (first : Nat) (clauses : List ClauseInput) :
    (jobsFrom defaults options first clauses).length = clauses.length := by
  induction clauses generalizing first with
  | nil => rfl
  | cons clause rest ih => simp [jobsFrom, ih]

/-- Compiling part of a list is part of compiling the list. -/
theorem take_jobsFrom (first size : Nat) (clauses : List ClauseInput) :
    (jobsFrom defaults options first clauses).take size =
      jobsFrom defaults options first (clauses.take size) := by
  induction clauses generalizing first size with
  | nil => simp [jobsFrom]
  | cons clause rest ih =>
    cases size with
    | zero => rfl
    | succ size => simp [jobsFrom, ih]

/-- The jobs behind the first few are those of the clauses behind the first few, at their own
places. -/
theorem drop_jobsFrom (first size : Nat) (clauses : List ClauseInput) :
    (jobsFrom defaults options first clauses).drop size =
      jobsFrom defaults options (first + size) (clauses.drop size) := by
  induction clauses generalizing first size with
  | nil => simp [jobsFrom]
  | cons clause rest ih =>
    cases size with
    | zero => rfl
    | succ size => simp [jobsFrom, ih, Nat.add_right_comm, Nat.add_assoc]

/-- The clauses of a list from `size` on stand at the places after it. -/
theorem jobsFrom_eq_append (first size : Nat) (clauses : List ClauseInput) :
    jobsFrom defaults options first clauses =
      jobsFrom defaults options first (clauses.take size) ++
        jobsFrom defaults options (first + size) (clauses.drop size) := by
  rw [← take_jobsFrom, ← drop_jobsFrom, List.take_append_drop]

/-- **Pieces compiled at their own places are the whole compiled in one go.** Piece number `k`
begins `k * size` places after the start. -/
theorem flatMap_chunksOf {size : Nat} (hsize : 0 < size) (first number : Nat)
    (clauses : List ClauseInput) :
    ((chunksOf size clauses).zipIdx number).flatMap
        (fun slice => jobsFrom defaults options (first + slice.2 * size) slice.1) =
      jobsFrom defaults options (first + number * size) clauses := by
  induction clauses using chunks_induction hsize generalizing number with
  | nil => simp [chunksOf_nil, jobsFrom]
  | step clauses hne ih =>
    rw [chunksOf_eq_cons hsize hne, List.zipIdx_cons, List.flatMap_cons, ih,
      jobsFrom_eq_append defaults options (first + number * size) size clauses,
      Nat.succ_mul, Nat.add_assoc]

/-! ### Slices and chunks -/

/-- A slice that need not stop is compiled to its end. -/
theorem compileSlice_eq (first : Nat) (clauses : List ClauseInput) :
    compileSlice defaults options false first clauses =
      jobsFrom defaults options first clauses := by
  induction clauses generalizing first with
  | nil => rfl
  | cons clause rest ih => simp [compileSlice, jobsFrom, ih]

/-- A slice that is to stop is compiled up to its first failure, that one included. -/
theorem compileSlice_of_stop (first : Nat) (clauses : List ClauseInput) :
    compileSlice defaults options true first clauses =
      (jobsFrom defaults options first clauses).take
        ((jobsFrom defaults options first clauses).findIdx Job.failed + 1) := by
  induction clauses generalizing first with
  | nil => rfl
  | cons clause rest ih =>
    simp only [compileSlice, jobsFrom, Bool.true_and, List.findIdx_cons]
    cases (compileJob defaults options first clause).failed with
    | true => simp
    | false => simp [ih]

/-- The slices of a chunk put together are the chunk. -/
theorem compileSlices_eq (workers first : Nat) (chunk : List ClauseInput) :
    compileSlices defaults options workers first chunk =
      jobsFrom defaults options first chunk := by
  have hsize : 0 < sliceSize chunk.length workers := by
    unfold sliceSize
    omega
  unfold compileSlices
  simp only [compileSlice_eq]
  rw [flatMap_chunksOf defaults options hsize first 0 chunk, Nat.zero_mul, Nat.add_zero]

/-- Without a stop a chunk is compiled to its end, by one worker or by several. -/
theorem compileChunk_of_not_failFast (h : options.failFast = false) (workers first : Nat)
    (chunk : List ClauseInput) :
    compileChunk defaults options workers first chunk =
      jobsFrom defaults options first chunk := by
  unfold compileChunk
  rw [h, compileSlice_eq, compileSlices_eq, ite_self]

/-- No chunk is to be empty, so that cutting ends. -/
theorem chunkSize_pos (clauses workers : Nat) : 0 < chunkSize clauses workers := by
  unfold chunkSize
  omega

/-- Without a stop the chunks of a batch put together are the batch. -/
theorem compileChunks_of_not_failFast (h : options.failFast = false) (workers size : Nat)
    (chunks : List (List ClauseInput × Nat)) :
    compileChunks defaults options workers size chunks =
      chunks.flatMap fun chunk => jobsFrom defaults options (chunk.2 * size) chunk.1 := by
  induction chunks with
  | nil => rfl
  | cons chunk rest ih =>
    rw [compileChunks, List.flatMap_cons, compileChunk_of_not_failFast defaults options h, h, ih]
    rfl

end Compiling
end Batch
end ImageCheck
