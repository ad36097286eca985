/-
# Dividing a batch

`SPEC_FULL` §5; `calculate_chunk_size`, the sizes worked out in `compile_batch` and
`compile_chunk_parallel`, and the limits `MAX_WORKER_THREADS` and
`MAX_CLAUSES_PER_BATCH`.

A batch is cut into chunks, and a chunk into one slice for each worker. With one
worker, a chunk is compiled clause by clause; with more, the slices of a chunk
are compiled side by side and put together in order.

* `chunksOf`: a list in pieces of one size, the last perhaps shorter;
* `workerCount`, `chunkSize`, `sliceSize`: the sizes.
-/

namespace ImageCheck
namespace Batch

/-- The most workers. -/
def maxWorkers : Nat := 8

/-- The most clauses of a batch. -/
def maxClauses : Nat := 100000

/-- The most clauses of a chunk. -/
def maxChunk : Nat := 256

/-- `a / b`, rounded up. -/
def divUp (a b : Nat) : Nat := (a + b - 1) / b

/-- The number of workers when `threads` are asked for: at least one. -/
def workerCount (threads : Nat) : Nat := max 1 (min maxWorkers threads)

/-- The clauses of a chunk: a multiple of the number of workers, within bounds. -/
def chunkSize (clauses workers : Nat) : Nat :=
  max 1 (min maxChunk (divUp clauses workers * workers))

/-- The clauses of one worker's slice of a chunk. -/
def sliceSize (chunk workers : Nat) : Nat := max 1 (divUp chunk workers)

/-- A list in pieces of `size` items, after those in `done`, last first. The last piece may be
shorter; a size of zero counts as one. -/
def chunksFrom {α : Type} (size : Nat) (done : List (List α)) (xs : List α) : List (List α) :=
  match xs with
  | [] => done.reverse
  | x :: rest =>
    chunksFrom size ((x :: rest.take (size - 1)) :: done) (rest.drop (size - 1))
termination_by xs.length
decreasing_by
  simp only [List.length_drop, List.length_cons]
  omega

/-- A list in pieces of `size` items; the last piece may be shorter. -/
def chunksOf {α : Type} (size : Nat) (xs : List α) : List (List α) :=
  chunksFrom size [] xs

end Batch
end ImageCheck
