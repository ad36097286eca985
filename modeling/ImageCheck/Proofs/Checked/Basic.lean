/-
# Checked reading

`SPEC_FULL` §4.5 and §4.6; `Position`, `Span` and their assertions, `slice`, and the
loops over `peek` and `bump`.

Reading a text with machine numbers can go wrong in four ways, the traps of a checked
computation: a text is cut where it has no boundary between characters, a position does
not fit its numbers, a span ends before it starts, or a loop goes round without having
read anything.

A checked computation has nothing but the text and a position. It looks at the text
only by cutting it at offsets, and every step of a position is checked. Failures that
are reported are ordinary results; only a trap ends it.

| check | where it stands |
| --- | --- |
| `cut` | both offsets fall between characters of the text, the first not behind the second |
| `advance` | the offset stays below `2^64` and the column below `2^32` |
| `newSpan` | a span does not end before it starts |
| `loop` | a pass that goes on has read at least one character |

On a short text nothing of this happens to a position at which a cursor stands in the
text, and the checked computation does what the cursor does: `cut_eq`, `advance_eq`,
`loop_eq`, `skipWhile_eq`, `takeUntil_eq`.
-/

import ImageCheck.Clause.Split
import ImageCheck.Proofs.Text.Place

namespace ImageCheck

/-- What must not happen. -/
inductive Trap where
  /-- A text is cut beyond its end, inside a character, or from one place back to an earlier one. -/
  | cut
  /-- A position does not fit its numbers. -/
  | overflow
  /-- A span ends before it starts. -/
  | span
  /-- A loop goes round without having read anything. -/
  | idle
  deriving DecidableEq, Repr

/-- A computation that stops at the first trap. -/
abbrev Checked := Except Trap

namespace Checked

@[simp] theorem ok_bind {α β : Type} (a : α) (f : α → Checked β) :
    ((.ok a : Checked α) >>= f) = f a := rfl

/-! ### What can trap -/

/-- The place after one more character. -/
def advance (p : Position) (ch : Char) : Checked Position :=
  if p.offset + ch.utf8Size < 2 ^ 64 ∧ p.column + 1 < 2 ^ 32 then .ok (p.advance ch)
  else .error .overflow

example : advance ⟨8, 4294967295⟩ 'a' = .error .overflow := rfl

/-- The place after the characters of a text, one by one. -/
def advanceBy (p : Position) (cs : List Char) : Checked Position :=
  cs.foldlM advance p

/-- The span between two places. -/
def newSpan (start stop : Position) : Checked Span :=
  if start.offset ≤ stop.offset then .ok ⟨start, stop⟩ else .error .span

/-- What a pass of a loop ends with. -/
inductive Pass (σ α : Type) where
  /-- The loop goes round once more. -/
  | again (state : σ)
  /-- The loop is done. -/
  | done (result : α)

section Source

variable (source : String)

/-- The characters between the offsets of two places. -/
def cut (p q : Position) : Checked (List Char) :=
  match (Span.mk p q).slice source.toList with
  | some cs => .ok cs
  | none => .error .cut

example : cut "é" ⟨1, 1⟩ ⟨2, 2⟩ = .error .cut := rfl

/-- All characters from a place on. -/
def remaining (p : Position) : Checked (List Char) :=
  cut source p (.endOf source)

/-- The next character. -/
def peek (p : Position) : Checked (Option Char) := do
  return (← remaining source p).head?

/-- The next character and the place after it. -/
def bump (p : Position) : Checked (Option Char × Position) := do
  match ← peek source p with
  | none => return (none, p)
  | some ch => return (some ch, ← advance p ch)

/-- Goes round until a pass is done. A state has a place in the text, and a pass that goes on must
have read at least one of its characters. -/
def loop {σ α : Type} (place : σ → Position) (pass : σ → Checked (Pass σ α)) (s : σ) :
    Checked α :=
  match pass s with
  | .error t => .error t
  | .ok (.done a) => .ok a
  | .ok (.again s') =>
    if _h : (place s).column < (place s').column ∧ (place s').column ≤ source.length + 1 then
      loop place pass s'
    else .error .idle
termination_by source.length + 1 - (place s).column

/-- The place after the longest run of characters in a class. -/
def skipWhile (inClass : Char → Bool) : Position → Checked Position :=
  loop source id fun p => do
    match ← peek source p with
    | none => return .done p
    | some ch => if inClass ch then return .again (← advance p ch) else return .done p

/-- The characters before the next one in the class `stop`, and the place before it. -/
def takeUntil (stop : Char → Bool) (p : Position) : Checked (List Char × Position) := do
  let q ← skipWhile source (fun ch => !stop ch) p
  return (← cut source p q, q)

end Source

/-! ### A cursor that stands in a short text -/

/-- A result with its cursor reduced to the place. -/
def located {α : Type} (r : α × Cursor) : α × Position := (r.1, r.2.position)

section Standing

variable {source : String} {c d : Cursor} {w : List Char}

/-- The characters that a cursor passed are cut out. -/
theorem cut_eq (h : c.StandsIn source) (hpass : c.Passes w d) :
    cut source c.position d.position = .ok w := by
  rw [cut, h.slice hpass]

/-- At a place where a cursor stands, the text is cut between two characters. -/
theorem remaining_eq (h : c.StandsIn source) : remaining source c.position = .ok c.rest :=
  cut_eq h h.passes_rest

/-- Looking at the next character there hits no trap. -/
theorem peek_eq (h : c.StandsIn source) : peek source c.position = .ok c.rest.head? := by
  rw [peek, remaining_eq h]
  rfl

/-- **A loop ends with the result of its first state**, if every pass is done with that result or
goes on with a state of the same result, whose cursor has less to read. -/
theorem loop_eq {σ τ α : Type} {place : σ → Position} {pass : σ → Checked (Pass σ α)}
    (view : τ → σ) (cursor : τ → Cursor) (hview : ∀ t, place (view t) = (cursor t).position)
    (result : τ → α)
    (hpass : ∀ t, (cursor t).StandsIn source →
      pass (view t) = .ok (.done (result t)) ∨
      ∃ t', pass (view t) = .ok (.again (view t')) ∧ (cursor t').StandsIn source ∧
        (cursor t').rest.length < (cursor t).rest.length ∧ result t' = result t)
    (t : τ) (ht : (cursor t).StandsIn source) :
    loop source place pass (view t) = .ok (result t) := by
  induction hn : (cursor t).rest.length using Nat.strongRecOn generalizing t with
  | ind n ih =>
    subst hn
    rw [loop]
    rcases hpass t ht with hdone | ⟨t', hagain, ht', hless, hresult⟩
    · rw [hdone]
    · -- fewer characters are left exactly because the column has grown
      have hforward : (place (view t)).column < (place (view t')).column ∧
          (place (view t')).column ≤ source.length + 1 := by
        have hbound := ht'.column_le
        rw [hview, hview]
        exact ⟨ht.column_lt ht' hless, by omega⟩
      rw [hagain]
      simp only [dif_pos hforward]
      rw [ih _ hless t' ht' rfl, hresult]

variable (hshort : source.length ≤ maxClauseBytes)

include hshort in
/-- A step between two places of a short text fits its numbers. -/
theorem advance_eq {ch : Char} (h : d.StandsIn source) {p : Position}
    (hp : d.position = p.advance ch) : advance p ch = .ok d.position := by
  have hoffset := h.offset_le
  have hcolumn := h.column_le
  rw [hp] at hoffset hcolumn ⊢
  unfold maxClauseBytes at hshort
  rw [advance, if_pos]
  simp only [Position.advance] at hoffset hcolumn
  omega

include hshort in
/-- So does a walk from one place of the text to another. -/
theorem advanceBy_eq (h : c.StandsIn source) (hpass : c.Passes w d) :
    advanceBy c.position w = .ok d.position := by
  induction w generalizing c with
  | nil =>
    rw [hpass.position]
    rfl
  | cons ch w ih =>
    obtain ⟨start, cs⟩ := c
    obtain rfl : cs = ch :: (w ++ d.rest) := hpass.rest
    have hnext := h.advance rfl
    rw [advanceBy, List.foldlM_cons, advance_eq hshort hnext rfl]
    exact ih hnext ⟨rfl, hpass.position⟩

/-- At the end of the text there is no character to take. -/
theorem bump_nil (h : c.StandsIn source) (hrest : c.rest = []) :
    bump source c.position = .ok (none, c.position) := by
  rw [bump, peek_eq h, hrest]
  rfl

include hshort in
/-- Anywhere else the next character is taken, and the place moves behind it. -/
theorem bump_cons (h : c.StandsIn source) {ch : Char} {rest : List Char}
    (hrest : c.rest = ch :: rest) :
    bump source c.position = .ok (some ch, c.position.advance ch) := by
  have hadvance := advance_eq hshort (h.advance hrest) rfl
  rw [bump, peek_eq h, hrest]
  simp only [ok_bind, List.head?_cons, hadvance]
  rfl

include hshort in
/-- **Skipping a class of characters hits no trap** and moves to where the cursor goes: each pass
that goes on has read a character. -/
theorem skipWhile_eq (h : c.StandsIn source) (inClass : Char → Bool) :
    skipWhile source inClass c.position = .ok (c.skipWhile inClass).position := by
  refine loop_eq Cursor.position id (fun _ => rfl) (fun c => (c.skipWhile inClass).position) ?_ c h
  rintro ⟨start, cs⟩ (h : Cursor.StandsIn source ⟨start, cs⟩)
  have hpeek := peek_eq h
  cases cs with
  | nil =>
    left
    simp only [hpeek]
    rfl
  | cons ch rest =>
    have hnext := h.advance rfl
    have hadvance := advance_eq hshort hnext rfl
    by_cases hch : inClass ch = true
    · right
      refine ⟨⟨start.advance ch, rest⟩, ?_, hnext, Nat.lt_succ_self _, ?_⟩
      · simp only [hpeek, ok_bind, List.head?_cons, if_pos hch, hadvance]
        rfl
      · rw [Cursor.skipWhile_cons hch]
    · left
      have hstay : (⟨start, ch :: rest⟩ : Cursor).skipWhile inClass = ⟨start, ch :: rest⟩ :=
        Cursor.skipWhile_eq_self (by simpa using hch)
      simp only [hpeek, ok_bind, List.head?_cons, if_neg hch, hstay]
      rfl

include hshort in
/-- Skipping blanks hits no trap. -/
theorem skipBlanks_eq (h : c.StandsIn source) :
    skipWhile source Text.isBlank c.position = .ok c.skipBlanks.position :=
  skipWhile_eq hshort h Text.isBlank

include hshort in
/-- The characters up to a stop are cut out at two places where the cursor stands. -/
theorem takeUntil_eq (h : c.StandsIn source) (stop : Char → Bool) :
    takeUntil source stop c.position =
      .ok (c.rest.takeWhile (fun ch => !stop ch), (Clause.skipUntil stop c).position) := by
  rw [takeUntil, skipWhile_eq hshort h, ok_bind, cut_eq h (c.passes_skipWhile _)]
  rfl

end Standing

end Checked
end ImageCheck
