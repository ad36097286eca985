/-
# Threads that name what they compile

`SPEC_FULL` §5; `compile_slice` on its own thread, with `with_clause_context`,
`set_clause_context` and `clear_clause_context`.

The log names a clause by what is set on the thread that compiles it. A thread goes
through its slice and sets and clears this for itself:

| point of a thread | its step |
| --- | --- |
| `ready`, clauses left | the label and the place of the next clause are set on it |
| `within` | the clause is compiled under whatever is set on it |
| `leaving` | nothing is set on it any more |

A `Visit` is a clause that was compiled, with what was set then. The threads of a `Crew`
go in any order between them. `Thread.visits` says what visits a thread will make when
it is left alone, `Thread.of_step` that each of its steps makes the next of them,
and `Crew.Step.perm` that therefore the visits made and those to come stay the same
whatever thread goes next.
-/

import ImageCheck.Batch.Run
import Mathlib.Algebra.Ring.Nat
import Mathlib.Data.List.Basic
import Mathlib.Logic.Relation

namespace ImageCheck
namespace Batch

/-- A clause that was compiled. -/
structure Visit where
  /-- What was set on the thread that compiled it. -/
  subject : Option Subject
  /-- The clause. -/
  clause : ClauseInput

/-- The visit of a clause under its own label and the number beside it. -/
def Visit.own (clause : ClauseInput × Nat) : Visit :=
  ⟨some ⟨clause.1.label, clause.2⟩, clause.1⟩

/-- The visits of clauses under their own labels and their places, the first at `first`. -/
def ownVisits (first : Nat) (clauses : List ClauseInput) : List Visit :=
  (clauses.zipIdx first).map Visit.own

/-- Where a thread is in its slice. -/
inductive Point where
  /-- Between clauses: the place of the next, and the clauses left. -/
  | ready (next : Nat) (left : List ClauseInput)
  /-- About to compile a clause. -/
  | within (next : Nat) (clause : ClauseInput) (left : List ClauseInput)
  /-- Done with a clause. -/
  | leaving (next : Nat) (left : List ClauseInput)

/-- A thread that goes through a slice. -/
structure Thread where
  /-- Whether it stops at a clause that fails. -/
  stop : Bool
  /-- What is set on it. -/
  subject : Option Subject
  /-- Where it is. -/
  point : Point

/-- Threads side by side. -/
structure Crew where
  /-- The threads. -/
  threads : List Thread
  /-- The visits made so far, in the order of their time. -/
  visits : List Visit

section Threads

variable (fails : ClauseInput → Bool)

/-- The next step of a thread, if it is not done, and the visits that it makes. -/
def Thread.step : Thread → Option (Thread × List Visit)
  | ⟨_, _, .ready _ []⟩ => none
  | ⟨stop, _, .ready next (clause :: left)⟩ =>
    some (⟨stop, some ⟨clause.label, next⟩, .within next clause left⟩, [])
  | ⟨stop, subject, .within next clause left⟩ =>
    some (⟨stop, subject, .leaving (next + 1) (if stop && fails clause then [] else left)⟩,
      [⟨subject, clause⟩])
  | ⟨stop, _, .leaving next left⟩ => some (⟨stop, none, .ready next left⟩, [])

/-- One step of any of the threads. -/
inductive Crew.Step : Crew → Crew → Prop
  | step {t u : Thread} {made : List Visit} (before after : List Thread) (visits : List Visit)
      (h : t.step fails = some (u, made)) :
      Step ⟨before ++ t :: after, visits⟩ ⟨before ++ u :: after, visits ++ made⟩

/-- All threads are done. -/
def Crew.Halted (c : Crew) : Prop := ∀ t ∈ c.threads, t.step fails = none

/-- The clauses of a slice that are compiled: all, or those up to the first that fails. -/
def reached (stop : Bool) : List ClauseInput → List ClauseInput
  | [] => []
  | clause :: rest =>
    if stop && fails clause then [clause] else clause :: reached stop rest

/-- The visits that a thread will make. -/
def Thread.visits : Thread → List Visit
  | ⟨stop, _, .ready next left⟩ => ownVisits next (reached fails stop left)
  | ⟨stop, subject, .within next clause left⟩ =>
    ⟨subject, clause⟩ ::
      ownVisits (next + 1) (reached fails stop (if stop && fails clause then [] else left))
  | ⟨stop, _, .leaving next left⟩ => ownVisits next (reached fails stop left)

/-- The visits that have been made and those to come. -/
def Crew.total (c : Crew) : List Visit := c.visits ++ c.threads.flatMap (Thread.visits fails)

/-- A bound on the steps of a thread: three for each clause. -/
def Thread.work : Thread → Nat
  | ⟨_, _, .ready _ left⟩ => 3 * left.length
  | ⟨_, _, .within _ _ left⟩ => 3 * left.length + 2
  | ⟨_, _, .leaving _ left⟩ => 3 * left.length + 1

/-- A bound on the steps of all threads. -/
def Crew.work (c : Crew) : Nat := (c.threads.map Thread.work).sum

/-! ### One thread -/

variable {fails}

/-- A thread that does not stop reaches all clauses. -/
theorem reached_false (clauses : List ClauseInput) : reached fails false clauses = clauses := by
  induction clauses with
  | nil => rfl
  | cons clause rest ih => rw [reached, Bool.false_and, if_neg Bool.false_ne_true, ih]

/-- The first clause is reached in any case; behind one that stops the thread, none is. -/
theorem reached_cons (stop : Bool) (clause : ClauseInput) (rest : List ClauseInput) :
    reached fails stop (clause :: rest) =
      clause :: reached fails stop (if stop && fails clause then [] else rest) := by
  rw [reached]
  split <;> rfl

/-- A thread leaves out clauses only at the end of its slice. -/
theorem isPrefix_reached (stop : Bool) (clauses : List ClauseInput) :
    reached fails stop clauses <+: clauses := by
  induction clauses with
  | nil => exact List.prefix_refl []
  | cons clause rest ih =>
    rw [reached]
    split
    · exact ⟨rest, rfl⟩
    · exact List.prefix_cons_inj clause |>.2 ih

/-- Clauses are left out only behind one that fails. -/
theorem reached_eq_self {stop : Bool} {clauses : List ClauseInput}
    (h : ¬ (stop && (reached fails stop clauses).any fails) = true) :
    reached fails stop clauses = clauses := by
  induction clauses with
  | nil => rfl
  | cons clause rest ih =>
    rw [reached] at h ⊢
    by_cases hstop : (stop && fails clause) = true
    · rw [if_pos hstop, List.any_cons, List.any_nil, Bool.or_false] at h
      exact absurd hstop h
    · rw [if_neg hstop, List.any_cons, Bool.and_or_distrib_left, Bool.or_eq_true, not_or] at h
      rw [if_neg hstop, ih h.2]

/-- The visits of clauses begin with that of the first, at the first place. -/
theorem ownVisits_cons (first : Nat) (clause : ClauseInput) (rest : List ClauseInput) :
    ownVisits first (clause :: rest) =
      ⟨some ⟨clause.label, first⟩, clause⟩ :: ownVisits (first + 1) rest := rfl

/-- The visits of two lists of clauses are those of the first and then those of the second, whose
places go on. -/
theorem ownVisits_append (first : Nat) (clauses more : List ClauseInput) :
    ownVisits first (clauses ++ more) =
      ownVisits first clauses ++ ownVisits (first + clauses.length) more := by
  rw [ownVisits, List.zipIdx_append, List.map_append]
  rfl

/-- **A step of a thread makes the first of the visits to come**, and leaves less to do. What was
set on the thread at `ready` is still set when the clause is compiled: no other thread can have set
it. -/
theorem Thread.of_step {t u : Thread} {made : List Visit} (h : t.step fails = some (u, made)) :
    t.visits fails = made ++ u.visits fails ∧ u.work < t.work := by
  obtain ⟨stop, subject, point⟩ := t
  cases point with
  | ready next left =>
    cases left with
    | nil => cases h
    | cons clause left =>
      cases h
      constructor
      · rw [visits, reached_cons, ownVisits_cons]
        rfl
      · show 3 * left.length + 2 < 3 * (left.length + 1)
        omega
  | within next clause left =>
    cases h
    refine ⟨rfl, ?_⟩
    simp only [work]
    split
    · simp
    · omega
  | leaving next left =>
    cases h
    exact ⟨rfl, Nat.lt_succ_self _⟩

/-- A thread that is done makes no more visits. -/
theorem Thread.visits_of_done {t : Thread} (h : t.step fails = none) : t.visits fails = [] := by
  obtain ⟨stop, subject, point⟩ := t
  cases point with
  | ready next left =>
    cases left with
    | nil => rfl
    | cons clause left => cases h
  | within next clause left => cases h
  | leaving next left => cases h

/-! ### Threads side by side -/

namespace Crew

variable {c d : Crew}

/-- **Whatever thread goes next, the visits in all stay the same.** -/
theorem Step.perm (h : Step fails c d) : (d.total fails).Perm (c.total fails) := by
  obtain @⟨t, u, made, before, after, visits, hstep⟩ := h
  simp only [total, List.flatMap_append, List.flatMap_cons, (Thread.of_step hstep).1,
    List.append_assoc]
  exact (List.perm_append_comm_assoc made _ _).append_left visits

/-- The visits of a whole schedule. -/
theorem perm_of_reflTransGen (h : Relation.ReflTransGen (Step fails) c d) :
    (d.total fails).Perm (c.total fails) := by
  induction h with
  | refl => exact List.Perm.refl _
  | tail _ hstep ih => exact hstep.perm.trans ih

/-- When all threads are done, all visits have been made. -/
theorem Halted.total_eq (h : c.Halted fails) : c.total fails = c.visits := by
  have hnone : c.threads.flatMap (Thread.visits fails) = [] :=
    List.flatMap_eq_nil_iff.2 fun t ht => Thread.visits_of_done (h t ht)
  rw [total, hnone, List.append_nil]

/-- A step of any thread leaves less to do for all of them together. -/
theorem Step.work_lt (h : Step fails c d) : d.work < c.work := by
  obtain @⟨t, u, made, before, after, visits, hstep⟩ := h
  have hless := (Thread.of_step hstep).2
  simp only [work, List.map_append, List.map_cons, List.sum_append, List.sum_cons]
  omega

variable (fails) in
/-- Every schedule can be brought to its end. -/
theorem exists_halted (c : Crew) :
    ∃ d, Relation.ReflTransGen (Step fails) c d ∧ d.Halted fails := by
  by_cases hdone : c.Halted fails
  · exact ⟨c, .refl, hdone⟩
  · simp only [Halted, not_forall] at hdone
    obtain ⟨t, ht, hmore⟩ := hdone
    obtain ⟨⟨u, made⟩, hstep⟩ := Option.ne_none_iff_exists'.1 hmore
    obtain ⟨before, after, hthreads⟩ := List.append_of_mem ht
    obtain ⟨threads, visits⟩ := c
    obtain rfl : threads = before ++ t :: after := hthreads
    have hnext : Step fails ⟨before ++ t :: after, visits⟩ ⟨before ++ u :: after, visits ++ made⟩ :=
      .step before after visits hstep
    have hless := hnext.work_lt
    obtain ⟨d, hrun, hend⟩ := exists_halted ⟨before ++ u :: after, visits ++ made⟩
    exact ⟨d, hrun.head hnext, hend⟩
termination_by c.work

end Crew
end Threads

end Batch
end ImageCheck
