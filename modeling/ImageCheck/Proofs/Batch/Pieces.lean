/-
# Pieces of a batch

`SPEC_FULL` §5; the offsets that `compile_batch` and `compile_chunk_parallel` give to
chunks and slices.

A batch is cut into chunks and a chunk into slices. No clause is told its place: the
place of a slice is worked out from the number of its chunk, its own number and the
sizes of both, and only the last piece of each cut may be short.

`Tiles` says that pieces lie end to end. `tiles_piecesFrom` is the run over all pieces
of one cut, `Tiles.flatMap` puts one cut inside another, and `Tiles.partition` reads off
what the word means: nothing is lost, each piece is a run of neighbours that stand where
the piece says, and none reaches into the next. `length_slices_le` counts the slices.
-/

import ImageCheck.Proofs.Batch.Chunks

namespace ImageCheck
namespace Batch

/-- Neighbouring clauses of a batch. -/
structure Piece where
  /-- The place of the first clause in the batch. -/
  first : Nat
  /-- The clauses, in order. -/
  clauses : List ClauseInput
  deriving DecidableEq

/-- The place after the last clause of a piece. -/
def Piece.beyond (p : Piece) : Nat := p.first + p.clauses.length

/-- The piece that begins as many sizes after a place as its number says. -/
def Piece.numbered (start size : Nat) (piece : List ClauseInput × Nat) : Piece :=
  ⟨start + piece.2 * size, piece.1⟩

/-- Clauses that begin at a place of a batch, in pieces of one size. -/
def piecesFrom (start size : Nat) (clauses : List ClauseInput) : List Piece :=
  (chunksOf size clauses).zipIdx.map (Piece.numbered start size)

/-- The chunks of a batch, as `compileChunks` goes through them. -/
def chunks (size : Nat) (clauses : List ClauseInput) : List Piece := piecesFrom 0 size clauses

/-- The slices of a chunk, one for each worker, as `compileSlices` goes through them. -/
def Piece.slices (workers : Nat) (chunk : Piece) : List Piece :=
  piecesFrom chunk.first (sliceSize chunk.clauses.length workers) chunk.clauses

/-- Pieces that lie end to end from a place on, none of them empty, and hold the given clauses. -/
inductive Tiles : Nat → List ClauseInput → List Piece → Prop
  | nil (start : Nat) : Tiles start [] []
  | cons {start : Nat} {clauses rest : List ClauseInput} {pieces : List Piece}
      (hne : clauses ≠ []) (hrest : Tiles (start + clauses.length) rest pieces) :
      Tiles start (clauses ++ rest) (⟨start, clauses⟩ :: pieces)

/-- What it is for pieces to divide the clauses from place `start` on. -/
structure Partition (start : Nat) (clauses : List ClauseInput) (pieces : List Piece) : Prop where
  /-- In their order, the pieces are the clauses in theirs. -/
  whole : pieces.flatMap Piece.clauses = clauses
  /-- No piece is empty. -/
  nonempty : ∀ p ∈ pieces, p.clauses ≠ []
  /-- A piece holds the clauses from its first place on, without a gap. -/
  contiguous : ∀ p ∈ pieces, start ≤ p.first ∧
    p.clauses = (clauses.drop (p.first - start)).take p.clauses.length
  /-- A piece ends before any later one begins. -/
  apart : pieces.Pairwise fun p q => p.beyond ≤ q.first

namespace Tiles

variable {start : Nat} {clauses : List ClauseInput} {pieces : List Piece}

/-- The pieces hold the clauses in their order. -/
theorem whole (h : Tiles start clauses pieces) : pieces.flatMap Piece.clauses = clauses := by
  induction h with
  | nil start => rfl
  | cons hne hrest ih => rw [List.flatMap_cons, ih]

/-- No piece is empty. -/
theorem nonempty (h : Tiles start clauses pieces) : ∀ p ∈ pieces, p.clauses ≠ [] := by
  induction h with
  | nil start => simp
  | cons hne hrest ih =>
    intro p hp
    rcases List.mem_cons.1 hp with rfl | hp
    · exact hne
    · exact ih p hp

/-- Each piece holds the clauses from its place on. -/
theorem contiguous (h : Tiles start clauses pieces) :
    ∀ p ∈ pieces, start ≤ p.first ∧
      p.clauses = (clauses.drop (p.first - start)).take p.clauses.length := by
  induction h with
  | nil start => simp
  | @cons start clauses rest pieces hne hrest ih =>
    intro p hp
    rcases List.mem_cons.1 hp with rfl | hp
    · simp
    · obtain ⟨hle, hclauses⟩ := ih p hp
      refine ⟨by omega, ?_⟩
      -- the first piece is passed over, and what is left to pass over is within the others
      have hoffset : p.first - start = clauses.length + (p.first - (start + clauses.length)) := by
        omega
      rw [hoffset, List.drop_length_add_append]
      exact hclauses

/-- A piece ends before any later one begins. -/
theorem apart (h : Tiles start clauses pieces) :
    pieces.Pairwise fun p q => p.beyond ≤ q.first := by
  induction h with
  | nil start => exact List.Pairwise.nil
  | cons hne hrest ih => exact List.pairwise_cons.2 ⟨fun q hq => (hrest.contiguous q hq).1, ih⟩

/-- **Pieces that lie end to end divide the clauses.** -/
theorem partition (h : Tiles start clauses pieces) : Partition start clauses pieces :=
  ⟨h.whole, h.nonempty, h.contiguous, h.apart⟩

/-- The clauses of the pieces, numbered from the places of the pieces, are numbered through. -/
theorem flatMap_zipIdx (h : Tiles start clauses pieces) :
    pieces.flatMap (fun p => p.clauses.zipIdx p.first) = clauses.zipIdx start := by
  induction h with
  | nil start => rfl
  | cons hne hrest ih => rw [List.flatMap_cons, ih, List.zipIdx_append]

/-- Pieces of some clauses and pieces of the clauses behind them are pieces of both. -/
theorem append {more : List ClauseInput} {others : List Piece} (h : Tiles start clauses pieces)
    (hmore : Tiles (start + clauses.length) more others) :
    Tiles start (clauses ++ more) (pieces ++ others) := by
  induction h with
  | nil start => exact hmore
  | cons hne hrest ih =>
    rw [List.length_append, ← Nat.add_assoc] at hmore
    rw [List.append_assoc]
    exact cons hne (ih hmore)

/-- Pieces that are divided in turn leave pieces that lie end to end. -/
theorem flatMap {divide : Piece → List Piece} (h : Tiles start clauses pieces)
    (hdivide : ∀ p, Tiles p.first p.clauses (divide p)) :
    Tiles start clauses (pieces.flatMap divide) := by
  induction h with
  | nil start => exact nil start
  | @cons start clauses rest pieces hne hrest ih => exact (hdivide ⟨start, clauses⟩).append ih

end Tiles

/-! ### The cuts of a batch -/

section Cuts

variable {size : Nat}

/-- **The pieces of one size lie end to end.** Piece number `number + k` begins `k` sizes after
piece `number`: every piece before the last is full. -/
theorem tiles_zipIdx_chunksOf (hsize : 0 < size) (start number : Nat)
    (clauses : List ClauseInput) :
    Tiles (start + number * size) clauses
      (((chunksOf size clauses).zipIdx number).map (Piece.numbered start size)) := by
  induction clauses using chunks_induction hsize generalizing number with
  | nil =>
    rw [chunksOf_nil]
    exact .nil _
  | step clauses hne ih =>
    have hpiece : clauses.take size ≠ [] := by
      rw [Ne, List.take_eq_nil_iff, not_or]
      exact ⟨Nat.ne_of_gt hsize, hne⟩
    have hrest : Tiles (start + number * size + (clauses.take size).length) (clauses.drop size)
        (((chunksOf size (clauses.drop size)).zipIdx (number + 1)).map
          (Piece.numbered start size)) := by
      by_cases hlast : clauses.length ≤ size
      · rw [List.drop_of_length_le hlast, chunksOf_nil]
        exact .nil _
      · have hnext := ih (number + 1)
        rw [Nat.succ_mul, ← Nat.add_assoc] at hnext
        rwa [List.length_take_of_le (by omega)]
    have hcons := Tiles.cons hpiece hrest
    rw [List.take_append_drop] at hcons
    rw [chunksOf_eq_cons hsize hne, List.zipIdx_cons, List.map_cons]
    exact hcons

/-- A cut at every so many clauses is a tiling, whatever the place of the first. -/
theorem tiles_piecesFrom (hsize : 0 < size) (start : Nat) (clauses : List ClauseInput) :
    Tiles start clauses (piecesFrom start size clauses) := by
  have h := tiles_zipIdx_chunksOf hsize start 0 clauses
  rwa [Nat.zero_mul, Nat.add_zero] at h

/-- The chunks of a batch lie end to end from its first clause on. -/
theorem tiles_chunks (hsize : 0 < size) (clauses : List ClauseInput) :
    Tiles 0 clauses (chunks size clauses) :=
  tiles_piecesFrom hsize 0 clauses

/-- No slice is to be empty, so that cutting ends. -/
theorem sliceSize_pos (chunk workers : Nat) : 0 < sliceSize chunk workers := by
  unfold sliceSize
  omega

/-- The slices of a chunk lie end to end from its own place on. -/
theorem tiles_slices (workers : Nat) (chunk : Piece) :
    Tiles chunk.first chunk.clauses (chunk.slices workers) :=
  tiles_piecesFrom (sliceSize_pos _ _) chunk.first chunk.clauses

/-! ### The number of slices -/

/-- A list no longer than `n` pieces is cut into at most `n`. -/
theorem length_chunksOf_le {α : Type} (hsize : 0 < size) {xs : List α} {n : Nat}
    (h : xs.length ≤ n * size) : (chunksOf size xs).length ≤ n := by
  induction xs using chunks_induction hsize generalizing n with
  | nil =>
    rw [chunksOf_nil]
    exact Nat.zero_le n
  | step xs hne ih =>
    have hpos := List.length_pos_iff.2 hne
    cases n with
    | zero => omega
    | succ n =>
      rw [Nat.succ_mul] at h
      have hrest : (xs.drop size).length ≤ n * size := by
        rw [List.length_drop]
        omega
      rw [chunksOf_eq_cons hsize hne, List.length_cons]
      exact Nat.succ_le_succ (ih hrest)

/-- So many slices of the rounded size have room for all clauses. -/
theorem le_mul_divUp (a : Nat) {b : Nat} (hb : 0 < b) : a ≤ b * divUp a b := by
  have hdivision := Nat.div_add_mod (a + b - 1) b
  have hrest := Nat.mod_lt (a + b - 1) hb
  unfold divUp
  omega

/-- **A chunk has at most one slice for each worker**, whatever its length. -/
theorem length_slices_le {workers : Nat} (hworkers : 0 < workers) (chunk : Piece) :
    (chunk.slices workers).length ≤ workers := by
  have henough : chunk.clauses.length ≤ workers * sliceSize chunk.clauses.length workers :=
    calc chunk.clauses.length
        ≤ workers * divUp chunk.clauses.length workers := le_mul_divUp _ hworkers
      _ ≤ workers * sliceSize chunk.clauses.length workers :=
          Nat.mul_le_mul_left _ (Nat.le_max_right _ _)
  have hcount := length_chunksOf_le (sliceSize_pos _ _) henough
  rwa [Piece.slices, piecesFrom, List.length_map, List.length_zipIdx]

end Cuts
end Batch
end ImageCheck
