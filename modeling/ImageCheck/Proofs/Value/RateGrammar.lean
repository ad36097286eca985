/-
# The grammar of error rates

`SPEC_FULL` §3: `<number>%` or `<number>px`; `from_str` of `ErrorRate`.

A text is read as an error rate without its outer blanks. What is left, `T`, decides alone:

| `T` | outcome |
| --- | --- |
| empty | the rate is empty |
| ends with no unit | the unit is missing, with `T` |
| `d+ ('.' d+)?`, blanks and a unit | the rate |
| any other | the value is invalid, with `T` |

`Outcome` is this table, and `parse_eq_iff` says that a text has the outcome of its row and no
other. The number of a rate is rounded to the nearest (`Binary64.IsRounded`); every decimal of the
grammar has such a number, so that the conversion has no failure of its own, and the last row is
about the digits alone.
-/

import ImageCheck.Proofs.Value.Rate

namespace ImageCheck

/-! ### Outer blanks -/

namespace Text

/-- The text `w` is `cs` without the blanks at its ends. -/
structure IsTrimmed (cs w : List Char) : Prop where
  /-- Only blanks are gone. -/
  split : ∃ front back, cs = front ++ (w ++ back) ∧ (∀ ch ∈ front, isBlank ch = true) ∧
    ∀ ch ∈ back, isBlank ch = true
  /-- No blank is left at the start. -/
  head : ∀ ch ∈ w.head?, isBlank ch = false
  /-- No blank is left at the end. -/
  last : ∀ ch ∈ w.getLast?, isBlank ch = false

section Trim

variable {cs w : List Char}

/-- Trimming leaves a text between blanks. -/
theorem isTrimmed_trim (cs : List Char) : IsTrimmed cs (trim cs) := by
  obtain ⟨back, hback, hblanks, hlast⟩ := exists_blanks_trimEnd (trimStart cs)
  refine ⟨⟨cs.takeWhile isBlank, back, ?_, ?_, hblanks⟩, ?_, hlast⟩
  · rw [trim, ← hback, trimStart, List.takeWhile_append_dropWhile]
  · exact fun ch hch => List.mem_takeWhile_imp hch
  · intro ch hch
    have hhead : (trimStart cs).head? = some ch := by
      rw [hback, List.head?_append, ← trim, Option.mem_def.1 hch]
      rfl
    have hnot := List.head?_dropWhile_not isBlank cs
    rw [← trimStart, hhead] at hnot
    simpa using hnot

/-- There is one such text. -/
theorem IsTrimmed.eq_trim (h : IsTrimmed cs w) : w = trim cs := by
  obtain ⟨⟨front, back, rfl, hfront, hback⟩, hhead, hlast⟩ := h
  rw [trim, trimStart, List.dropWhile_append_of_pos hfront]
  cases w with
  | nil =>
    rw [List.nil_append, List.dropWhile_eq_nil_iff.2 hback]
    rfl
  | cons ch w =>
    have hch : isBlank ch = false := hhead ch rfl
    rw [List.cons_append, List.dropWhile_cons_of_neg (by rw [hch]; exact Bool.false_ne_true),
      ← List.cons_append, trimEnd_append_blanks hlast hback]

/-- **Trimming takes the outer blanks off**, and there is one way to do so. -/
theorem isTrimmed_iff : IsTrimmed cs w ↔ w = trim cs := by
  constructor
  · exact IsTrimmed.eq_trim
  · rintro rfl
    exact isTrimmed_trim cs

end Trim
end Text

namespace ErrorRate

/-! ### The grammar -/

/-- The text of a rate: a decimal that stands for `n · 10^-k`, blanks and a unit. -/
inductive Spells : List Char → Nat → Nat → RateUnit → Prop
  | rate {number blanks : List Char} {n k : Nat} {unit : RateUnit}
      (hnumber : Decimal.Writes number n k) (hblanks : ∀ ch ∈ blanks, Text.isBlank ch = true) :
      Spells (number ++ blanks ++ unit.suffix.toList) n k unit

/-- What becomes of a text without outer blanks. -/
inductive Outcome (w : List Char) : Except ErrorRateError ErrorRate → Prop
  | empty (hnil : w = []) : Outcome w (.error .empty)
  | missingUnit (hne : w ≠ []) (hunit : ∀ unit : RateUnit, ¬ unit.suffix.toList <:+ w) :
      Outcome w (.error (.missingUnit (String.ofList w)))
  | rate {n k : Nat} {r : ErrorRate} (hrate : Spells w n k r.unit)
      (hsign : r.value.negative = false) (hvalue : r.value.IsRounded n (10 ^ k)) :
      Outcome w (.ok r)
  | invalidValue {unit : RateUnit} (hunit : unit.suffix.toList <:+ w)
      (hnone : ∀ n k unit, ¬ Spells w n k unit) :
      Outcome w (.error (.invalidValue (String.ofList w)))

section Outcome

variable {text : String} {w before : List Char} {unit : RateUnit} {n k : Nat}

/-- A text that ends with a unit is not empty. -/
theorem ne_nil_of_suffix (h : unit.suffix.toList <:+ w) : w ≠ [] := by
  rintro rfl
  exact suffix_ne_nil unit (List.suffix_nil.1 h)

/-- A text before a unit is a decimal and blanks if it is a decimal without its last blanks. -/
theorem spells_append_iff {unit' : RateUnit} :
    Spells (before ++ unit.suffix.toList) n k unit' ↔
      unit' = unit ∧ Decimal.Writes (Text.trimEnd before) n k := by
  constructor
  · intro h
    generalize hw : before ++ unit.suffix.toList = w at h
    cases h with
    | @rate number blanks n k unit' hnumber hblanks =>
      -- a text ends with one unit at most
      have hsplit := congrArg splitUnit? hw
      rw [splitUnit?_append, splitUnit?_append, Option.some.injEq, Prod.mk.injEq] at hsplit
      obtain ⟨rfl, rfl⟩ := hsplit
      rw [Text.trimEnd_append_blanks
        (fun ch hch => hnumber.not_isBlank ch (List.mem_of_getLast? hch)) hblanks]
      exact ⟨rfl, hnumber⟩
  · rintro ⟨rfl, hnumber⟩
    obtain ⟨blanks, hbefore, hblanks, -⟩ := Text.exists_blanks_trimEnd before
    rw [hbefore]
    exact .rate hnumber hblanks

/-! ### One equation for each row -/

/-- A text that ends with no unit is not split. -/
theorem splitUnit?_eq_none (hunit : ∀ unit : RateUnit, ¬ unit.suffix.toList <:+ w) :
    splitUnit? w = none := by
  cases hsplit : splitUnit? w with
  | none => rfl
  | some found => exact absurd ⟨found.1, (eq_append_of_splitUnit? hsplit).symm⟩ (hunit found.2)

/-- Blanks alone are an empty rate. -/
theorem parse_of_nil (hnil : Text.trim text.toList = []) : parse text = .error .empty := by
  rw [parse, if_pos hnil]

/-- A text that ends with no unit lacks one. -/
theorem parse_of_no_unit (hne : Text.trim text.toList ≠ [])
    (hunit : ∀ unit : RateUnit, ¬ unit.suffix.toList <:+ Text.trim text.toList) :
    parse text = .error (.missingUnit (String.ofList (Text.trim text.toList))) := by
  rw [parse, if_neg hne, splitUnit?_eq_none hunit]

/-- A decimal and a unit are a rate, rounded to the nearest. -/
theorem parse_of_spells (h : Spells (Text.trim text.toList) n k unit) :
    parse text = .ok ⟨.ofFraction false n (10 ^ k), unit⟩ := by
  generalize htrim : Text.trim text.toList = w at h
  cases h with
  | rate hnumber hblanks => exact parse_of_trim_eq htrim hblanks hnumber

/-- Anything else before a unit is an invalid value. -/
theorem parse_of_not_spells (hunit : unit.suffix.toList <:+ Text.trim text.toList)
    (hnone : ∀ n k unit, ¬ Spells (Text.trim text.toList) n k unit) :
    parse text = .error (.invalidValue (String.ofList (Text.trim text.toList))) := by
  have hne := ne_nil_of_suffix hunit
  obtain ⟨before, hbefore⟩ := hunit
  have hnumber : ¬ Decimal.isUnsigned (Text.trimEnd before) = true := by
    intro h
    obtain ⟨n, k, hwrites⟩ := Decimal.isUnsigned_iff.1 h
    refine hnone n k unit ?_
    rw [← hbefore, spells_append_iff]
    exact ⟨rfl, hwrites⟩
  have hsplit : splitUnit? (Text.trim text.toList) = some (before, unit) := by
    rw [← hbefore, splitUnit?_append]
  rw [parse, if_neg hne, hsplit]
  simp only [if_neg hnumber]

/-- **A text has the outcome of its row**, and no other. -/
theorem parse_eq_iff {o : Except ErrorRateError ErrorRate} :
    parse text = o ↔ Outcome (Text.trim text.toList) o := by
  have hden (k : Nat) : 0 < 10 ^ k := Nat.pow_pos (by decide)
  constructor
  · rintro rfl
    by_cases hnil : Text.trim text.toList = []
    · rw [parse_of_nil hnil]
      exact .empty hnil
    by_cases hunit : ∃ unit : RateUnit, unit.suffix.toList <:+ Text.trim text.toList
    · obtain ⟨unit, hunit⟩ := hunit
      by_cases hspells : ∃ n k unit, Spells (Text.trim text.toList) n k unit
      · obtain ⟨n, k, unit, hspells⟩ := hspells
        rw [parse_of_spells hspells]
        exact .rate hspells rfl (Binary64.isRounded_ofFraction false (hden k))
      · have hnone : ∀ n k unit, ¬ Spells (Text.trim text.toList) n k unit :=
          fun n k unit h => hspells ⟨n, k, unit, h⟩
        rw [parse_of_not_spells hunit hnone]
        exact .invalidValue hunit hnone
    · rw [not_exists] at hunit
      rw [parse_of_no_unit hnil hunit]
      exact .missingUnit hnil hunit
  · intro h
    cases h with
    | empty hnil => exact parse_of_nil hnil
    | missingUnit hne hunit => exact parse_of_no_unit hne hunit
    | @rate n k r hspells hsign hvalue =>
      rw [parse_of_spells hspells, ← hsign, ← (Binary64.isRounded_iff (hden k)).1 hvalue]
    | invalidValue hunit hnone => exact parse_of_not_spells hunit hnone

end Outcome

/-- **The grammar of error rates.** A text without its outer blanks is `w`. It is refused as empty
if nothing is left, as without a unit if `w` ends with none, and it is a rate if `w` is an unsigned
decimal, blanks and a unit: the rate has this unit and the decimal, rounded, and no sign. Any other
text has an invalid value. What is an unsigned decimal always has a number. -/
theorem parse_classifies (text : String) :
    ∃ w, (∀ w', Text.IsTrimmed text.toList w' ↔ w' = w) ∧
      (parse text = .error .empty ↔ w = []) ∧
      (∀ s, parse text = .error (.missingUnit s) ↔
        s = String.ofList w ∧ w ≠ [] ∧ ∀ unit : RateUnit, ¬ unit.suffix.toList <:+ w) ∧
      ((∃ r, parse text = .ok r) ↔ ∃ n k unit, Spells w n k unit) ∧
      (∀ r, parse text = .ok r ↔ ∃ n k, Spells w n k r.unit ∧ r.value.negative = false ∧
        r.value.IsRounded n (10 ^ k)) ∧
      (∀ s, parse text = .error (.invalidValue s) ↔
        s = String.ofList w ∧ (∃ unit : RateUnit, unit.suffix.toList <:+ w) ∧
          ∀ n k unit, ¬ Spells w n k unit) ∧
      ∀ number, Decimal.isUnsigned number = true → ∃ x, Binary64.parse? number = some x := by
  refine ⟨Text.trim text.toList, fun w' => Text.isTrimmed_iff, ?_, ?_, ?_, ?_, ?_, ?_⟩
  · rw [parse_eq_iff]
    constructor
    · rintro ⟨hnil⟩
      exact hnil
    · exact .empty
  · intro s
    rw [parse_eq_iff]
    constructor
    · intro h
      cases h with
      | missingUnit hne hunit => exact ⟨rfl, hne, hunit⟩
    · rintro ⟨rfl, hne, hunit⟩
      exact .missingUnit hne hunit
  · constructor
    · rintro ⟨r, h⟩
      cases parse_eq_iff.1 h with
      | rate hspells hsign hvalue => exact ⟨_, _, _, hspells⟩
    · rintro ⟨n, k, unit, hspells⟩
      exact ⟨_, parse_of_spells hspells⟩
  · intro r
    rw [parse_eq_iff]
    constructor
    · intro h
      cases h with
      | rate hspells hsign hvalue => exact ⟨_, _, hspells, hsign, hvalue⟩
    · rintro ⟨n, k, hspells, hsign, hvalue⟩
      exact .rate hspells hsign hvalue
  · intro s
    rw [parse_eq_iff]
    constructor
    · intro h
      cases h with
      | invalidValue hunit hnone => exact ⟨rfl, ⟨_, hunit⟩, hnone⟩
    · rintro ⟨rfl, ⟨unit, hunit⟩, hnone⟩
      exact .invalidValue hunit hnone
  · intro number hnumber
    obtain ⟨n, k, hwrites⟩ := Decimal.isUnsigned_iff.1 hnumber
    exact ⟨_, hwrites.parse?_eq⟩

end ErrorRate
end ImageCheck
