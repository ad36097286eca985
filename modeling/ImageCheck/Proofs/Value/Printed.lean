/-
# Values read back from their texts

Each reader of a value takes the text of what it reads, and gives it back: the text
of an error rate, of a whole number, of a rectangle, of a filter.

The readers of rectangles and filters go through tokens. `exists_number_append` is the
one step they share: a cursor before blanks and the text of a whole number reads a
number that is cut to that whole number, and stands behind it.
-/

import ImageCheck.Compile.Value
import ImageCheck.Proofs.Clause.Quoting
import ImageCheck.Proofs.Number.ReadBack
import ImageCheck.Proofs.Value.Runs

namespace ImageCheck

/-! ### Error rates -/

/-- A text without blanks at its ends has nothing to trim. -/
theorem Text.trim_eq_self {w : List Char} (hhead : ∀ ch ∈ w.head?, isBlank ch = false)
    (hlast : ∀ ch ∈ w.getLast?, isBlank ch = false) : trim w = w := by
  have hstart : trimStart w = w := by
    cases w with
    | nil => rfl
    | cons ch w => simp [trimStart, hhead ch rfl]
  rw [trim, hstart, trimEnd_eq_self hlast]

/-- Blanks at the end are trimmed, and nothing else. -/
theorem Text.trimEnd_append_blanks {w blanks : List Char}
    (hlast : ∀ ch ∈ w.getLast?, isBlank ch = false) (hblanks : ∀ ch ∈ blanks, isBlank ch = true) :
    trimEnd (w ++ blanks) = w := by
  have hreverse : ∀ ch ∈ blanks.reverse, isBlank ch = true := by simpa using hblanks
  rw [trimEnd, List.reverse_append, List.dropWhile_append_of_pos hreverse]
  exact trimEnd_eq_self hlast

theorem Text.forall_not_isBlank {w : List Char} (h : w.any isBlank = false) :
    ∀ ch ∈ w, isBlank ch = false := by
  simpa using h

/-- The digits of a number hold no blank. -/
theorem Decimal.Writes.not_isBlank {cs : List Char} {n k : Nat} (h : Writes cs n k) :
    ∀ ch ∈ cs, Text.isBlank ch = false := by
  intro ch hch
  rcases h.mem ch hch with hdigit | rfl
  · exact isBlank_of_isDigit hdigit
  · decide

namespace ErrorRate

/-- A unit behind a text is found. -/
theorem splitUnit?_append (cs : List Char) (unit : RateUnit) :
    splitUnit? (cs ++ unit.suffix.toList) = some (cs, unit) := by
  cases unit <;> simp [splitUnit?, RateUnit.suffix]

theorem suffix_ne_nil (unit : RateUnit) : unit.suffix.toList ≠ [] := by
  cases unit <;> decide

/-- No unit holds a blank. -/
theorem suffix_not_isBlank (unit : RateUnit) :
    ∀ ch ∈ unit.suffix.toList, Text.isBlank ch = false := by
  refine Text.forall_not_isBlank ?_
  cases unit <;> decide

section Writes

variable {number blanks : List Char} {n k : Nat} {unit : RateUnit}

/-- A decimal with a unit behind it has no blanks at its ends. -/
theorem trim_append_suffix (hwrites : Decimal.Writes number n k) :
    Text.trim (number ++ blanks ++ unit.suffix.toList) =
      number ++ blanks ++ unit.suffix.toList := by
  refine Text.trim_eq_self (fun ch hch => ?_) fun ch hch => ?_
  · obtain ⟨d, more, rfl, hd⟩ := hwrites.exists_head
    obtain rfl : d = ch := by simpa using hch
    exact Decimal.isBlank_of_isDigit hd
  · refine suffix_not_isBlank unit ch (List.mem_of_getLast? ?_)
    rw [List.getLast?_append] at hch
    cases hlast : unit.suffix.toList.getLast? with
    | none => exact absurd (List.getLast?_eq_none_iff.1 hlast) (suffix_ne_nil unit)
    | some d => simpa [hlast] using hch

/-- **A decimal, blanks and a unit are read as a rate.** -/
theorem parse_of_trim_eq {text : String}
    (htrim : Text.trim text.toList = number ++ blanks ++ unit.suffix.toList)
    (hblanks : ∀ ch ∈ blanks, Text.isBlank ch = true) (hwrites : Decimal.Writes number n k) :
    parse text = .ok ⟨.ofFraction false n (10 ^ k), unit⟩ := by
  have hne : number ++ blanks ++ unit.suffix.toList ≠ [] :=
    List.append_ne_nil_of_right_ne_nil _ (suffix_ne_nil unit)
  have hnumber : Text.trimEnd (number ++ blanks) = number :=
    Text.trimEnd_append_blanks
      (fun ch hch => hwrites.not_isBlank ch (List.mem_of_getLast? hch)) hblanks
  rw [parse, htrim, if_neg hne, splitUnit?_append]
  simp only [hnumber, hwrites.isUnsigned, hwrites.parse?_eq, if_true]

end Writes

/-- **A finite rate without a sign reads back from its text.** -/
theorem parse_text {r : ErrorRate} (hfinite : r.value.isFinite = true)
    (hsign : r.value.negative = false) : parse r.text = .ok r := by
  obtain ⟨⟨n, k, hwrites⟩, hparse⟩ := Decimal.exists_writes_text hfinite hsign
  have hvalue : r.value = .ofFraction false n (10 ^ k) := by
    rw [hwrites.parse?_eq] at hparse
    exact (Option.some.inj hparse).symm
  have htoList : r.text.toList = r.value.text.toList ++ [] ++ r.unit.suffix.toList := by
    rw [text, String.toList_append, List.append_nil]
  have htrim : Text.trim r.text.toList = r.value.text.toList ++ [] ++ r.unit.suffix.toList := by
    rw [htoList, trim_append_suffix hwrites]
  rw [parse_of_trim_eq htrim (by simp) hwrites, ← hvalue]

end ErrorRate

namespace Value

/-! ### Whole numbers -/

/-- **A whole number up to the largest that a parameter takes reads back from its text.** -/
theorem integer_toString (field : String) {n : UInt32} (hn : n.toNat ≤ 2147483647) :
    integer field (toString n.toNat) = .ok n := by
  have hne : Decimal.digitsOf n.toNat ≠ [] := Nat.toDigits_ne_nil
  have hparse : Decimal.parseBounded? maxInteger (toString n.toNat).toList = some n.toNat := by
    rw [Decimal.toList_toString_nat, Decimal.parseBounded?, Decimal.natOfDigits_digitsOf,
      if_pos ⟨hne, Decimal.allDigits_digitsOf _, hn⟩]
  rw [integer, hparse]
  simp

end Value

/-! ### Tokens of whole numbers -/

/-- The text of a whole number of 32 bits is a token. -/
theorem toString_int32_token (i : Int32) :
    (toString i.toInt).toList ≠ [] ∧ (toString i.toInt).toList.length ≤ maxTokenLength ∧
      ∀ ch ∈ (toString i.toInt).toList, Text.isBlank ch = false := by
  have hlow := i.le_toInt
  have hhigh := i.toInt_le
  have hmax : Int32.maxValue.toInt = 2147483647 := rfl
  have hdigits : (Decimal.digitsOf i.toInt.natAbs).length ≤ 10 :=
    (Nat.length_toDigits_le_iff (by decide) (by decide)).2 (by omega)
  have hwrites := Decimal.writes_digitsOf i.toInt.natAbs
  have hne : Decimal.digitsOf i.toInt.natAbs ≠ [] := Nat.toDigits_ne_nil
  rw [Decimal.toList_toString_int]
  refine ⟨List.append_ne_nil_of_right_ne_nil _ hne, ?_, ?_⟩
  · rw [List.length_append, maxTokenLength]
    split <;> simp <;> omega
  · intro ch hch
    rcases List.mem_append.1 hch with hch | hch
    · split at hch
      · rw [List.mem_singleton.1 hch]
        decide
      · cases hch
    · exact hwrites.not_isBlank ch hch

namespace Cursor

/-- A cursor before blanks and a run reads the run as a word. -/
theorem word_append (p : Position) {blanks run rest : List Char}
    (hblanks : ∀ ch ∈ blanks, Text.isBlank ch = true) (hne : run ≠ [])
    (hlength : run.length ≤ maxTokenLength) (hrun : ∀ ch ∈ run, Text.isBlank ch = false)
    (hend : ∀ ch ∈ rest.head?, Text.isBlank ch = true) :
    (⟨p, blanks ++ (run ++ rest)⟩ : Cursor).word =
      (.ok (String.ofList run), ⟨(p.advanceBy blanks).advanceBy run, rest⟩) := by
  obtain ⟨-, htoken, hafter⟩ :=
    skipBlanks_token_afterToken_append p hblanks (head_append_not_isBlank hne hrun) hrun hend
  rw [word, htoken, hafter, Token.check, if_neg hne, if_neg (Nat.not_lt.2 hlength)]
  rfl

/-- A cursor before blanks and the text of a whole number reads that number, wherever it is. -/
theorem exists_number_append (i : Int32) :
    ∃ x : Binary64, x.truncate32 = i ∧ ∀ (p : Position) {blanks rest : List Char},
      (∀ ch ∈ blanks, Text.isBlank ch = true) → (∀ ch ∈ rest.head?, Text.isBlank ch = true) →
        ∃ q, (⟨p, blanks ++ ((toString i.toInt).toList ++ rest)⟩ : Cursor).number =
          (.ok x, ⟨q, rest⟩) := by
  obtain ⟨hne, hlength, hrun⟩ := toString_int32_token i
  obtain ⟨hliteral, x, hparse, hfinite, htruncate⟩ := Decimal.exists_parse?_toString i
  generalize (toString i.toInt).toList = run at *
  refine ⟨x, htruncate, fun p blanks rest hblanks hend => ?_⟩
  obtain ⟨-, htoken, hafter⟩ :=
    skipBlanks_token_afterToken_append p hblanks (head_append_not_isBlank hne hrun) hrun hend
  refine ⟨(p.advanceBy blanks).advanceBy run, ?_⟩
  rw [number, htoken, hafter, Token.number, Token.check, if_neg hne, if_neg (Nat.not_lt.2 hlength)]
  simp only [hliteral, hparse, hfinite, if_true]

/-- One more number. -/
theorem numbers_succ {n : Nat} {c c' c'' : Cursor} {xs : Vector Binary64 n} {x : Binary64}
    (hxs : c.numbers n = .ok (xs, c')) (hx : c'.number = (.ok x, c'')) :
    c.numbers (n + 1) = .ok (xs.push x, c'') := by
  rw [numbers, hxs]
  simp only [hx]

theorem finish_of_nil (p : Position) : (⟨p, []⟩ : Cursor).finish.1 = .ok () := rfl

end Cursor

/-! ### Rectangles and filters -/

namespace Value

theorem space_isBlank : ∀ ch ∈ [' '], Text.isBlank ch = true := by
  simpa using Text.isBlank_space

theorem head_space_isBlank (rest : List Char) :
    ∀ ch ∈ ([' '] ++ rest).head?, Text.isBlank ch = true := by
  rintro ch ⟨rfl⟩
  exact Text.isBlank_space

theorem nil_isBlank : ∀ ch ∈ ([] : List Char), Text.isBlank ch = true :=
  fun _ hch => absurd hch List.not_mem_nil

theorem head_nil_isBlank : ∀ ch ∈ ([] : List Char).head?, Text.isBlank ch = true := by
  rintro ch ⟨⟩

/-- **A rectangle reads back from its text.** -/
theorem rect_text (r : Rect) : rect r.text = .ok r := by
  have htext : r.text.toList = [] ++ ((toString r.x.toInt).toList ++
      ([' '] ++ ((toString r.y.toInt).toList ++ ([' '] ++ ((toString r.width.toInt).toList ++
        ([' '] ++ ((toString r.height.toInt).toList ++ []))))))) := by
    simp [Rect.text]
  obtain ⟨x, hx, hreadx⟩ := Cursor.exists_number_append r.x
  obtain ⟨y, hy, hready⟩ := Cursor.exists_number_append r.y
  obtain ⟨w, hw, hreadw⟩ := Cursor.exists_number_append r.width
  obtain ⟨h, hh, hreadh⟩ := Cursor.exists_number_append r.height
  -- the four reads, one behind another
  obtain ⟨p₁, h₁⟩ := hreadx .start nil_isBlank (head_space_isBlank _)
  obtain ⟨p₂, h₂⟩ := hready p₁ space_isBlank (head_space_isBlank _)
  obtain ⟨p₃, h₃⟩ := hreadw p₂ space_isBlank (head_space_isBlank _)
  obtain ⟨p₄, h₄⟩ := hreadh p₃ space_isBlank head_nil_isBlank
  have hnone : (Cursor.ofList r.text.toList).numbers 0 = .ok (#v[], ⟨.start, r.text.toList⟩) := rfl
  rw [htext] at hnone
  have hread := Cursor.numbers_succ (Cursor.numbers_succ (Cursor.numbers_succ
    (Cursor.numbers_succ hnone h₁) h₂) h₃) h₄
  rw [rect, readNumbers, htext, hread]
  simp [Cursor.finish_of_nil, hx, hy, hw, hh]

/-- A name of a filter is a token. -/
theorem filterName_token (kind : FilterKind) :
    kind.name.toList ≠ [] ∧ kind.name.toList.length ≤ maxTokenLength ∧
      ∀ ch ∈ kind.name.toList, Text.isBlank ch = false := by
  refine ⟨?_, ?_, Text.forall_not_isBlank ?_⟩ <;> cases kind <;> decide

/-- **A filter reads back from its text.** -/
theorem filter_text (f : FilterOp) : filter f.text = .ok f := by
  have htext : f.text.toList =
      [] ++ (f.kind.name.toList ++ ([' '] ++ ((toString f.value.toInt).toList ++ []))) := by
    simp [FilterOp.text]
  obtain ⟨hne, hlength, hrun⟩ := filterName_token f.kind
  obtain ⟨x, hx, hread⟩ := Cursor.exists_number_append f.value
  have hword := Cursor.word_append .start nil_isBlank hne hlength hrun
    (head_space_isBlank ((toString f.value.toInt).toList ++ []))
  obtain ⟨q, hnumber⟩ := hread ((Position.start.advanceBy []).advanceBy f.kind.name.toList)
    space_isBlank head_nil_isBlank
  rw [filter, Cursor.ofList, htext, hword]
  simp only [hnumber, String.ofList_toList, FilterKind.ofName?_name, Cursor.finish_of_nil, hx]

end Value
end ImageCheck
