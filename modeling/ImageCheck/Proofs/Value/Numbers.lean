/-
# So many numbers and nothing else

`SPEC_FULL` §4.3; `expect_numbers` and `parse_rect`.

What a text of `n` numbers comes to depends on its runs `t₀`, `t₁`, … alone. Slot `i` is
faulty in one of three ways:

| the run `tᵢ` | failure |
| --- | --- |
| is missing | a number is missing, at the end of the text |
| is too long | that, at the run |
| is no decimal literal, or not finite | an invalid number, at the run |

Of the slots below `n` the first that is faulty decides, whatever the faults behind it are:
a text whose second number is too long and whose first is no number fails for the first.
If none of them is faulty, a run `tₙ` makes trailing content, and otherwise the numbers are
those of the runs, in their order. `NumbersFault` is this table.

The slots are gone through one by one. `Cursor.number_cases` is one slot, for a cursor whose
tokens are the runs from `k` on, and `Cursor.numbers_cases` any number of them. A slot has a
number or a fault and never both, so the table has one row for each text
(`NumbersFault.unique`), and both outcomes are an `iff`.

A rectangle is four such numbers, each without its fraction (`Value.rect_eq_ok_iff`).
`NumbersOutcome` puts numbers and rectangles together.
-/

import ImageCheck.Proofs.Value.Filter
import ImageCheck.Proofs.Value.Printed

namespace ImageCheck

/-! ### Slots -/

/-- Run `i` is there and stands for the number `x`. -/
def Slot (runs : List Token) (i : Nat) (x : Binary64) : Prop :=
  ∃ t, runs[i]? = some t ∧ t.text.length ≤ 4096 ∧ IsNumber t.text x

/-- Why there is no number in slot `i`. -/
inductive SlotFault (text : String) (runs : List Token) (i : Nat) : ReadError → Prop
  | missing (h : runs.length ≤ i) : SlotFault text runs i (.missingNumber (.endOf text))
  | long {t : Token} (h : runs[i]? = some t) (hlong : 4096 < t.text.length) :
      SlotFault text runs i (.tokenTooLong t.text.length t.start)
  | invalid {t : Token} (h : runs[i]? = some t) (hshort : t.text.length ≤ 4096)
      (hinvalid : ∀ x, ¬ IsNumber t.text x) :
      SlotFault text runs i (.invalidNumber (String.ofList t.text) t.start)

/-- Why a text with these runs is not `n` numbers and nothing else. -/
inductive NumbersFault (text : String) (runs : List Token) (n : Nat) : ReadError → Prop
  /-- The first slot without a number decides. -/
  | slot {i : Nat} {e : ReadError} (hi : i < n) (hfault : SlotFault text runs i e)
      (hbefore : ∀ j < i, ∃ x, Slot runs j x) : NumbersFault text runs n e
  /-- All slots have a number, and there is one run more. -/
  | trailing {t : Token} {before trail blanks : List Char} (hslots : ∀ j < n, ∃ x, Slot runs j x)
      (h : runs[n]? = some t) (htext : text.toList = before ++ (trail ++ blanks))
      (hstart : t.start = Position.start.advanceBy before)
      (hblanks : ∀ ch ∈ blanks, Text.isBlank ch = true)
      (hlast : ∀ ch ∈ trail.getLast?, Text.isBlank ch = false) :
      NumbersFault text runs n (.trailingContent (String.ofList trail) t.start)

section Slots

variable {text : String} {runs : List Token} {i : Nat}

/-- A slot with a number has a run. -/
theorem Slot.lt_length {x : Binary64} (h : Slot runs i x) : i < runs.length := by
  obtain ⟨t, ht, -, -⟩ := h
  exact (List.getElem?_eq_some_iff.1 ht).1

/-- A slot has one number. -/
theorem Slot.unique {x y : Binary64} (hx : Slot runs i x) (hy : Slot runs i y) : x = y := by
  obtain ⟨t, ht, -, hnumber⟩ := hx
  obtain ⟨t', ht', -, hnumber'⟩ := hy
  obtain rfl : t = t' := Option.some.inj (ht.symm.trans ht')
  exact Option.some.inj (hnumber.value.symm.trans hnumber'.value)

/-- A slot with a number has no fault. -/
theorem Slot.not_slotFault {x : Binary64} (hx : Slot runs i x) {e : ReadError} :
    ¬ SlotFault text runs i e := by
  obtain ⟨t, ht, hshort, hnumber⟩ := hx
  rintro (hmissing | ⟨ht', hlong⟩ | ⟨ht', -, hinvalid⟩)
  · exact absurd (List.getElem?_eq_some_iff.1 ht).1 (Nat.not_lt.2 hmissing)
  · obtain rfl := Option.some.inj (ht.symm.trans ht')
    omega
  · obtain rfl := Option.some.inj (ht.symm.trans ht')
    exact hinvalid x hnumber

/-- A slot has one fault: a run that is there is either too long or no number. -/
theorem SlotFault.unique {e e' : ReadError} (h : SlotFault text runs i e)
    (h' : SlotFault text runs i e') : e = e' := by
  rcases h with hmissing | ⟨ht, hlong⟩ | ⟨ht, hshort, -⟩ <;>
    rcases h' with hmissing' | ⟨ht', hlong'⟩ | ⟨ht', hshort', -⟩ <;> grind

end Slots

/-! ### Reading slot after slot -/

namespace Cursor

section Reading

variable {text : String} {runs : List Token} {c : Cursor} {k : Nat}

/-- One slot, on a cursor whose tokens are the runs from `k` on. -/
theorem number_cases (hstands : StandsIn text c) (htokens : c.tokens = runs.drop k) :
    (∃ x, c.number = (.ok x, c.afterToken) ∧ Slot runs k x) ∨
      ∃ e, c.number = (.error e, c.afterToken) ∧ SlotFault text runs k e := by
  have hanswer := answers_number hstands htokens
  have hafter : c.number = (c.number.1, c.afterToken) := rfl
  rw [hafter]
  simp only [reply] at hanswer
  generalize c.number.1 = result at hanswer ⊢
  cases hanswer with
  | number h hshort hliteral hvalue hfinite =>
    exact .inl ⟨_, rfl, _, h, hshort, Decimal.isLiteral_iff.1 hliteral, hvalue, hfinite⟩
  | longNumber h hlong => exact .inr ⟨_, rfl, .long h hlong⟩
  | invalidNumber h hshort hinvalid =>
    exact .inr ⟨_, rfl, .invalid h hshort (not_isNumber hinvalid)⟩
  | missingNumber h => exact .inr ⟨_, rfl, .missing h⟩

/-- Slot after slot up to `n`: the numbers of all of them, or the first fault. -/
theorem numbers_cases (hstands : StandsIn text c) (htokens : c.tokens = runs) (n : Nat) :
    (∃ (xs : Vector Binary64 n) (d : Cursor), c.numbers n = .ok (xs, d) ∧ StandsIn text d ∧
      d.tokens = runs.drop n ∧ ∀ i (_ : i < n), Slot runs i xs[i]) ∨
      ∃ e i, c.numbers n = .error e ∧ i < n ∧ SlotFault text runs i e ∧
        ∀ j < i, ∃ x, Slot runs j x := by
  induction n with
  | zero => exact .inl ⟨#v[], c, rfl, hstands, htokens, fun i hi => absurd hi (Nat.not_lt_zero i)⟩
  | succ n ih =>
    rw [numbers]
    rcases ih with ⟨xs, d, hxs, hd, hdrop, hslots⟩ | ⟨e, i, he, hi, hfault, hbefore⟩
    · rw [hxs]
      rcases number_cases hd hdrop with ⟨x, hx, hslot⟩ | ⟨e, he, hfault⟩
      · simp only [hx]
        refine .inl ⟨_, _, rfl, hd.afterToken, tokens_next hdrop .number, fun i hi => ?_⟩
        rcases Nat.lt_succ_iff_lt_or_eq.1 hi with hlt | rfl
        · rw [Vector.getElem_push_lt hlt]
          exact hslots i hlt
        · rw [Vector.getElem_push_eq]
          exact hslot
      · simp only [he]
        exact .inr ⟨e, n, rfl, Nat.lt_succ_self n, hfault, fun j hj => ⟨_, hslots j hj⟩⟩
    · rw [he]
      exact .inr ⟨e, i, rfl, Nat.lt_succ_of_lt hi, hfault, hbefore⟩

end Reading

end Cursor

/-! ### The table -/

section Table

variable {text : String} {n : Nat}

/-- Every text is in the table, with the tokens that a cursor finds. -/
theorem readNumbers_cases (n : Nat) (text : String) :
    (∃ xs, readNumbers n text = .ok xs ∧ (Cursor.ofList text.toList).tokens.length = n ∧
      ∀ i (_ : i < n), Slot (Cursor.ofList text.toList).tokens i xs[i]) ∨
      ∃ e, readNumbers n text = .error e ∧
        NumbersFault text (Cursor.ofList text.toList).tokens n e := by
  have hstands := Cursor.standsIn_ofList text
  rw [readNumbers]
  generalize Cursor.ofList text.toList = c at hstands ⊢
  rcases Cursor.numbers_cases hstands rfl n with
    ⟨xs, d, hxs, hd, hdrop, hslots⟩ | ⟨e, i, he, hi, hfault, hbefore⟩
  · simp only [hxs]
    have hall (i : Nat) (hi : i < n) : i < c.tokens.length := (hslots i hi).lt_length
    rcases Cursor.finish_cases hd with
      ⟨hnil, hfinish⟩ | ⟨before, trail, blanks, htext, hblanks, hlast, -, hhead, hfinish⟩
    · simp only [hfinish]
      have hle : c.tokens.length ≤ n := List.drop_eq_nil_iff.1 (hdrop.symm.trans hnil)
      have hge : n ≤ c.tokens.length := Nat.le_of_not_lt fun h => Nat.lt_irrefl _ (hall _ h)
      exact .inl ⟨xs, rfl, Nat.le_antisymm hle hge, hslots⟩
    · simp only [hfinish]
      rw [hdrop, List.head?_drop, Option.map_eq_some_iff] at hhead
      obtain ⟨t, ht, hstart⟩ := hhead
      rw [← hstart]
      exact .inr ⟨_, rfl, .trailing (fun j hj => ⟨_, hslots j hj⟩) ht htext hstart hblanks hlast⟩
  · simp only [he]
    exact .inr ⟨e, rfl, .slot hi hfault hbefore⟩

/-- A text that is `n` numbers is not in the table of faults. -/
theorem NumbersFault.false_of_slots {runs : List Token} {e : ReadError}
    (h : NumbersFault text runs n e) (hlength : runs.length = n)
    (hslots : ∀ i < n, ∃ x, Slot runs i x) : False := by
  rcases h with ⟨hi, hfault, -⟩ | ⟨-, ht, -, -, -, -⟩
  · obtain ⟨x, hx⟩ := hslots _ hi
    exact hx.not_slotFault hfault
  · have hlt := (List.getElem?_eq_some_iff.1 ht).1
    omega

/-- What stands from a place on, without the blanks at its end, is one text. -/
theorem trail_unique {before before' trail trail' blanks blanks' : List Char}
    (h : before ++ (trail ++ blanks) = before' ++ (trail' ++ blanks'))
    (hstart : Position.start.advanceBy before = Position.start.advanceBy before')
    (hblanks : ∀ ch ∈ blanks, Text.isBlank ch = true)
    (hblanks' : ∀ ch ∈ blanks', Text.isBlank ch = true)
    (hlast : ∀ ch ∈ trail.getLast?, Text.isBlank ch = false)
    (hlast' : ∀ ch ∈ trail'.getLast?, Text.isBlank ch = false) : trail = trail' := by
  have hlength : before.length = before'.length := by
    simpa [Position.advanceBy_eq] using congrArg Position.column hstart
  obtain ⟨-, hrest⟩ := List.append_inj h hlength
  rw [← Text.trimEnd_append_blanks hlast hblanks, hrest,
    Text.trimEnd_append_blanks hlast' hblanks']

/-- A text is in one row of the table. -/
theorem NumbersFault.unique {runs : List Token} {e e' : ReadError}
    (h : NumbersFault text runs n e) (h' : NumbersFault text runs n e') : e = e' := by
  cases h with
  | @slot i _ hi hfault hbefore =>
    cases h' with
    | @slot i' _ hi' hfault' hbefore' =>
      -- of two first faults neither stands before the other
      rcases Nat.lt_trichotomy i i' with hlt | rfl | hlt
      · obtain ⟨x, hx⟩ := hbefore' i hlt
        exact absurd hfault hx.not_slotFault
      · exact hfault.unique hfault'
      · obtain ⟨x, hx⟩ := hbefore i' hlt
        exact absurd hfault' hx.not_slotFault
    | trailing hslots' =>
      obtain ⟨x, hx⟩ := hslots' i hi
      exact absurd hfault hx.not_slotFault
  | trailing hslots ht htext hstart hblanks hlast =>
    cases h' with
    | @slot i' _ hi' hfault' =>
      obtain ⟨x, hx⟩ := hslots i' hi'
      exact absurd hfault' hx.not_slotFault
    | trailing _ ht' htext' hstart' hblanks' hlast' =>
      obtain rfl := Option.some.inj (ht.symm.trans ht')
      rw [trail_unique (htext.symm.trans htext') (hstart.symm.trans hstart') hblanks hblanks'
        hlast hlast']

/-- A text is read as these numbers exactly if its runs are they, in order and none more. -/
theorem readNumbers_eq_ok_iff {xs : Vector Binary64 n} :
    readNumbers n text = .ok xs ↔ (Cursor.ofList text.toList).tokens.length = n ∧
      ∀ i (_ : i < n), Slot (Cursor.ofList text.toList).tokens i xs[i] := by
  rcases readNumbers_cases n text with ⟨ys, hys, hlength, hslots⟩ | ⟨e, he, hfault⟩
  · rw [hys]
    constructor
    · rintro ⟨rfl⟩
      exact ⟨hlength, hslots⟩
    · rintro ⟨-, hslots'⟩
      exact congrArg _ (Vector.ext fun i hi => (hslots i hi).unique (hslots' i hi))
  · rw [he]
    refine ⟨nofun, ?_⟩
    rintro ⟨hlength, hslots⟩
    exact (hfault.false_of_slots hlength fun i hi => ⟨_, hslots i hi⟩).elim

/-- A text fails exactly as the table says. -/
theorem readNumbers_eq_error_iff {e : ReadError} :
    readNumbers n text = .error e ↔ NumbersFault text (Cursor.ofList text.toList).tokens n e := by
  rcases readNumbers_cases n text with ⟨xs, hxs, hlength, hslots⟩ | ⟨e', he', hfault⟩
  · rw [hxs]
    refine ⟨nofun, fun h => ?_⟩
    exact (h.false_of_slots hlength fun i hi => ⟨_, hslots i hi⟩).elim
  · rw [he']
    constructor
    · rintro ⟨rfl⟩
      exact hfault
    · exact fun h => congrArg _ (hfault.unique h)

/-- A text is `n` numbers exactly when it has `n` runs and each of them is one. -/
theorem exists_readNumbers_eq_ok_iff :
    (∃ xs, readNumbers n text = .ok xs) ↔ (Cursor.ofList text.toList).tokens.length = n ∧
      ∀ t ∈ (Cursor.ofList text.toList).tokens,
        t.text.length ≤ 4096 ∧ ∃ x, IsNumber t.text x := by
  constructor
  · rintro ⟨xs, hxs⟩
    obtain ⟨hlength, hslots⟩ := readNumbers_eq_ok_iff.1 hxs
    refine ⟨hlength, fun t ht => ?_⟩
    obtain ⟨i, hi⟩ := List.mem_iff_getElem?.1 ht
    have hlt := (List.getElem?_eq_some_iff.1 hi).1
    obtain ⟨t', ht', hshort, hnumber⟩ := hslots i (by omega)
    obtain rfl := Option.some.inj (hi.symm.trans ht')
    exact ⟨hshort, _, hnumber⟩
  · rintro ⟨hlength, hall⟩
    rcases readNumbers_cases n text with ⟨xs, hxs, -⟩ | ⟨e, -, hfault⟩
    · exact ⟨xs, hxs⟩
    · refine (hfault.false_of_slots hlength fun i hi => ?_).elim
      have hlt : i < (Cursor.ofList text.toList).tokens.length := by omega
      have ht := List.getElem?_eq_getElem hlt
      obtain ⟨hshort, x, hnumber⟩ := hall _ (List.mem_of_getElem? ht)
      exact ⟨x, _, ht, hshort, hnumber⟩

/-- The place of a failure lies within the text. -/
theorem NumbersFault.stop_column_le {runs : List Token} (hruns : RunsOf text.toList runs)
    {e : ReadError} (h : NumbersFault text runs n e) : e.span.stop.column ≤ 1 + text.length := by
  have hfound {i : Nat} {t : Token} (ht : runs[i]? = some t) : Found text t.text t.start :=
    ((hruns.mem_iff t).1 (List.mem_of_getElem? ht)).found
  rcases h with ⟨-, hmissing | ⟨ht, -⟩ | ⟨ht, -, -⟩, -⟩ | ⟨-, -, htext, hstart, -, -⟩
  · exact Nat.le_refl _
  · exact (hfound ht).column_add_length_le
  · rw [ReadError.span, String.toList_ofList]
    exact (hfound ht).stop_column_le
  · rw [ReadError.span, String.toList_ofList, hstart]
    exact (found_of_eq_append htext).stop_column_le

end Table

/-! ### Rectangles -/

namespace Value

section Rect

variable {text : String}

theorem exists_eq_four (xs : Vector Binary64 4) :
    ∃ x y width height, xs = #v[x, y, width, height] := by
  refine ⟨xs[0], xs[1], xs[2], xs[3], Vector.ext fun i hi => ?_⟩
  rcases i with _ | _ | _ | _ | i
  · rfl
  · rfl
  · rfl
  · rfl
  · omega

/-- A rectangle is four numbers, in the order of its fields, each without its fraction. -/
theorem rect_eq_ok_iff {r : Rect} :
    rect text = .ok r ↔ ∃ x y width height, readNumbers 4 text = .ok #v[x, y, width, height] ∧
      x.Truncates r.x ∧ y.Truncates r.y ∧ width.Truncates r.width ∧
      height.Truncates r.height := by
  obtain ⟨x, y, width, height⟩ := r
  simp only [Binary64.truncates_iff, rect]
  cases readNumbers 4 text with
  | error e => simp
  | ok xs =>
    obtain ⟨x', y', width', height', rfl⟩ := exists_eq_four xs
    simp [eq_comm]

/-- A failure to read four numbers is that of the rectangle. -/
theorem rect_eq_error_iff {e : CompileError} :
    rect text = .error e ↔ ∃ cause, readNumbers 4 text = .error cause ∧ e = .read cause := by
  rw [rect]
  cases readNumbers 4 text with
  | error cause => simp [eq_comm]
  | ok xs => simp

end Rect

end Value

/-! ### The outcome -/

/-- What a text with these runs comes to when it is read as `n` numbers, or as a rectangle. -/
structure NumbersOutcome (n : Nat) (text : String) (runs : List Token) : Prop where
  /-- It is `n` numbers exactly if it has `n` runs and each of them is one. -/
  readable : (∃ xs, readNumbers n text = .ok xs) ↔
    runs.length = n ∧ ∀ t ∈ runs, t.text.length ≤ 4096 ∧ ∃ x, IsNumber t.text x
  /-- The numbers are those of the runs, in their order. -/
  values : ∀ xs : Vector Binary64 n, readNumbers n text = .ok xs ↔
    runs.length = n ∧ ∀ i (_ : i < n), Slot runs i xs[i]
  /-- The failure is the row of the table that the runs fall into. -/
  faults : ∀ e, readNumbers n text = .error e ↔ NumbersFault text runs n e
  /-- The columns of a failure fit 32 bits. -/
  columns : ∀ e, readNumbers n text = .error e → e.span.stop.column < 2 ^ 32
  /-- A rectangle is four numbers, each without its fraction. -/
  rect : ∀ r, Value.rect text = .ok r ↔
    ∃ x y width height, readNumbers 4 text = .ok #v[x, y, width, height] ∧
      x.Truncates r.x ∧ y.Truncates r.y ∧ width.Truncates r.width ∧ height.Truncates r.height
  /-- A failure to read four numbers is that of the rectangle. -/
  rect_faults : ∀ e, Value.rect text = .error e ↔
    ∃ cause, readNumbers 4 text = .error cause ∧ e = .read cause

/-- **So many numbers by their runs.** A text is read as `n` numbers exactly when it has `n` runs,
none too long and each a finite decimal literal, and the numbers are those of the runs in their
order. Otherwise the failure is that of the first slot without a number, or the content behind the
last slot if there is none, and its columns fit 32 bits. A rectangle is read exactly when four
numbers are, and a failure to read them is passed on. -/
theorem readNumbers_outcome (n : Nat) (text : String) (hlength : text.length < 2 ^ 32 - 1) :
    ∃ runs, RunsOf text.toList runs ∧ NumbersOutcome n text runs := by
  have hruns := Cursor.runsOf_tokens text.toList
  refine ⟨_, hruns, ?_⟩
  constructor
  case readable => exact exists_readNumbers_eq_ok_iff
  case values => exact fun _ => readNumbers_eq_ok_iff
  case faults => exact fun _ => readNumbers_eq_error_iff
  case columns =>
    intro e he
    have hcolumn := (readNumbers_eq_error_iff.1 he).stop_column_le hruns
    omega
  case rect => exact fun _ => Value.rect_eq_ok_iff
  case rect_faults => exact fun _ => Value.rect_eq_error_iff

/-- A word where the second of four numbers should stand decides, although the fourth is missing.
Four numbers with signs and fractions are a rectangle, and `-2.5` is exactly that before it loses
its fraction. -/
theorem readNumbers_outcome_wide :
    "1 wide é".length < 2 ^ 32 - 1 ∧
      (∃ runs, RunsOf "1 wide é".toList runs ∧
        NumbersFault "1 wide é" runs 4 (.invalidNumber "wide" ⟨2, 3⟩) ∧
        Value.rect "1 wide é" = .error (.read (.invalidNumber "wide" ⟨2, 3⟩))) ∧
      ∃ runs y, RunsOf " +1 -2.5\t.75 30".toList runs ∧ Slot runs 1 y ∧
        y.negative = true ∧ 2 * y.magnitude = 5 * Binary64.one ∧
        Value.rect " +1 -2.5\t.75 30" = .ok ⟨1, -2, 0, 30⟩ := by
  have hread : readNumbers 4 "1 wide é" = .error (.invalidNumber "wide" ⟨2, 3⟩) := by
    decide +kernel
  have hsigned : readNumbers 4 " +1 -2.5\t.75 30" = .ok
      #v[.ofNat 1, .ofFraction true 5 2, .ofFraction false 3 4, .ofNat 30] := by
    decide +kernel
  obtain ⟨runs, hruns, houtcome⟩ := readNumbers_outcome 4 "1 wide é" (by decide)
  obtain ⟨runs', hruns', houtcome'⟩ := readNumbers_outcome 4 " +1 -2.5\t.75 30" (by decide)
  obtain ⟨-, hslots⟩ := (houtcome'.values _).1 hsigned
  refine ⟨by decide, ⟨runs, hruns, (houtcome.faults _).1 hread,
    (houtcome.rect_faults _).2 ⟨_, hread, rfl⟩⟩,
    runs', _, hruns', hslots 1 (by decide), by decide +kernel, by decide +kernel, ?_⟩
  refine (houtcome'.rect _).2 ⟨_, _, _, _, hsigned, ?_⟩
  simp only [Binary64.truncates_iff]
  decide +kernel

end ImageCheck
