/-
# Decimal texts and what they stand for

`Writes text n k` says that a text is the digits of `n`, with a point before the last
`k` of them if `k` is positive: it stands for `n · 10^-k`. Both printers of numbers
give such texts (`writes_digitsOf`, `exists_writes_positional`), and every reader
takes them: the two grammars accept them (`isUnsigned_iff`, `Writes.isLiteral`),
and with or without a minus sign they are read as the number nearest to the
fraction (`Writes.parse?_eq`, `Writes.parse?_minus`). `Literal` is the wider of the two
grammars (`isLiteral_iff`).
-/

import ImageCheck.Number.Shortest
import ImageCheck.Text.Blank
import Mathlib.Data.List.TakeWhile
import Mathlib.Tactic.Ring

namespace ImageCheck
namespace Decimal

/-- A text of digits that stands for `n · 10^-k`, with a point before the last `k` digits unless
`k` is zero. -/
inductive Writes : List Char → Nat → Nat → Prop
  | whole {w : List Char} (hne : w ≠ []) (hw : allDigits w = true) : Writes w (natOfDigits w) 0
  | point {w f : List Char} (hne : w ≠ []) (hw : allDigits w = true) (hfne : f ≠ [])
      (hf : allDigits f = true) : Writes (w ++ '.' :: f) (natOfDigits (w ++ f)) f.length

theorem tenTo_eq (n : Nat) : tenTo n = 10 ^ n := rfl

/-! ### Characters -/

/-- A digit is none of the characters that are no digits. -/
theorem ne_of_isDigit {ch d : Char} (h : ch.isDigit = true) (hd : d.isDigit = false) : ch ≠ d := by
  rintro rfl
  rw [hd] at h
  cases h

/-- No digit is blank. -/
theorem isBlank_of_isDigit {ch : Char} (h : ch.isDigit = true) : Text.isBlank ch = false := by
  obtain ⟨hlow, hhigh⟩ := Char.isDigit_iff_toNat.1 h
  have hlow : 48 ≤ ch.toNat := hlow
  have hhigh : ch.toNat ≤ 57 := hhigh
  simp only [Text.isBlank, Text.blankRanges, List.any_cons, List.any_nil, Bool.or_false,
    Bool.or_eq_false_iff, Bool.and_eq_false_iff, decide_eq_false_iff_not]
  omega

/-- A text is all digits exactly if each of its characters is one. -/
theorem allDigits_iff {w : List Char} : allDigits w = true ↔ ∀ ch ∈ w, ch.isDigit = true := by
  rw [allDigits, List.all_eq_true]

/-- A decimal text begins with a digit. -/
theorem Writes.exists_head {cs : List Char} {n k : Nat} (h : Writes cs n k) :
    ∃ ch more, cs = ch :: more ∧ ch.isDigit = true := by
  have hhead {w : List Char} (hne : w ≠ []) (hw : allDigits w = true) (rest : List Char) :
      ∃ ch more, w ++ rest = ch :: more ∧ ch.isDigit = true := by
    obtain ⟨ch, more, rfl⟩ := List.exists_cons_of_ne_nil hne
    exact ⟨ch, more ++ rest, rfl, allDigits_iff.1 hw ch List.mem_cons_self⟩
  cases h with
  | whole hne hw => simpa using hhead hne hw []
  | point hne hw _ _ => exact hhead hne hw _

/-! ### Reading -/

/-- Digits have no point to be split at. -/
theorem splitPoint_of_allDigits {w : List Char} (hw : allDigits w = true) :
    splitPoint w = (w, none) := by
  have hdrop : w.dropWhile (· != '.') = [] := by
    rw [List.dropWhile_eq_nil_iff]
    intro ch hch
    simpa using ne_of_isDigit (allDigits_iff.1 hw ch hch) (by decide)
  rw [splitPoint, hdrop]

/-- Digits with a point behind them are split at that point. -/
theorem splitPoint_append {w : List Char} (hw : allDigits w = true) (f : List Char) :
    splitPoint (w ++ '.' :: f) = (w, some f) := by
  have hall : ∀ ch ∈ w, (ch != '.') = true := by
    intro ch hch
    simpa using ne_of_isDigit (allDigits_iff.1 hw ch hch) (by decide)
  rw [splitPoint, List.dropWhile_append_of_pos hall, List.takeWhile_append_of_pos hall]
  simp

/-- A text that is not split is the whole of itself. -/
theorem splitPoint_eq_none {cs w : List Char} (h : splitPoint cs = (w, none)) : cs = w := by
  unfold splitPoint at h
  split at h
  · exact congrArg Prod.fst h
  · cases h

/-- A text that is split has the point between its two parts. -/
theorem splitPoint_eq_some {cs w f : List Char} (h : splitPoint cs = (w, some f)) :
    cs = w ++ '.' :: f := by
  unfold splitPoint at h
  split at h
  · cases h
  · rename_i ch fraction hdrop
    obtain ⟨rfl, rfl⟩ : cs.takeWhile (· != '.') = w ∧ fraction = f := by simpa using h
    have hpoint : (ch != '.') = false := by
      have := List.head?_dropWhile_not (· != '.') cs
      simpa [hdrop] using this
    have hsplit := List.takeWhile_append_dropWhile (p := (· != '.')) (l := cs)
    rw [hdrop] at hsplit
    obtain rfl : ch = '.' := by simpa using hpoint
    exact hsplit.symm

section Reading

variable {cs : List Char} {n k : Nat}

/-- The digits of a number, with a point or without, are an unsigned decimal. -/
theorem Writes.isUnsigned (h : Writes cs n k) : isUnsigned cs = true := by
  cases h with
  | whole hne hw =>
    rw [Decimal.isUnsigned, splitPoint_of_allDigits hw]
    simp [hne, hw]
  | point hne hw hfne hf =>
    rw [Decimal.isUnsigned, splitPoint_append hw]
    simp [hne, hw, hfne, hf]

/-- **The unsigned decimals are the decimal texts.** -/
theorem isUnsigned_iff : isUnsigned cs = true ↔ ∃ n k, Writes cs n k := by
  constructor
  · intro h
    rw [isUnsigned] at h
    split at h
    · rename_i w hsplit
      obtain rfl := splitPoint_eq_none hsplit
      simp only [Bool.and_eq_true, Bool.not_eq_true', List.isEmpty_eq_false_iff] at h
      exact ⟨_, _, .whole h.2 h.1⟩
    · rename_i w f hsplit
      obtain rfl := splitPoint_eq_some hsplit
      simp only [Bool.and_eq_true, Bool.not_eq_true', List.isEmpty_eq_false_iff] at h
      exact ⟨_, _, .point h.1.2 h.1.1 h.2.2 h.2.1⟩
  · rintro ⟨n, k, h⟩
    exact h.isUnsigned

/-- **A magnitude is digits**, or digits with a point among them or at either end. -/
theorem isMagnitude_iff :
    isMagnitude cs = true ↔ cs ≠ [] ∧ allDigits cs = true ∨
      ∃ w f, cs = w ++ '.' :: f ∧ allDigits w = true ∧ allDigits f = true ∧ (w ≠ [] ∨ f ≠ []) := by
  constructor
  · intro h
    rw [Decimal.isMagnitude] at h
    split at h
    · rename_i w hsplit
      obtain rfl := splitPoint_eq_none hsplit
      simp only [Bool.and_eq_true, Bool.not_eq_true', List.isEmpty_eq_false_iff] at h
      exact .inl ⟨h.2, h.1⟩
    · rename_i w f hsplit
      simp only [Bool.and_eq_true, Bool.not_eq_true', Bool.and_eq_false_iff,
        List.isEmpty_eq_false_iff] at h
      exact .inr ⟨w, f, splitPoint_eq_some hsplit, h.1.1, h.1.2, h.2⟩
  · rintro (⟨hne, hw⟩ | ⟨w, f, rfl, hw, hf, hne⟩)
    · rw [Decimal.isMagnitude, splitPoint_of_allDigits hw]
      simp [hw, hne]
    · rw [Decimal.isMagnitude, splitPoint_append hw]
      rcases hne with hne | hne <;> simp [hw, hf, hne]

/-- They are a magnitude. -/
theorem Writes.isMagnitude (h : Writes cs n k) : isMagnitude cs = true := by
  rw [isMagnitude_iff]
  cases h with
  | whole hne hw => exact .inl ⟨hne, hw⟩
  | point hne hw _ hf => exact .inr ⟨_, _, rfl, hw, hf, .inl hne⟩

/-- A magnitude has digits and points only. -/
theorem mem_of_isMagnitude (h : isMagnitude cs = true) :
    ∀ ch ∈ cs, ch.isDigit = true ∨ ch = '.' := by
  intro ch hch
  rcases isMagnitude_iff.1 h with ⟨-, hw⟩ | ⟨w, f, rfl, hw, hf, -⟩
  · exact .inl (allDigits_iff.1 hw ch hch)
  · rcases List.mem_append.1 hch with hch | hch
    · exact .inl (allDigits_iff.1 hw ch hch)
    · rcases List.mem_cons.1 hch with rfl | hch
      · exact .inr rfl
      · exact .inl (allDigits_iff.1 hf ch hch)

/-- No character of a magnitude opens an exponent. -/
theorem not_isExponentMark (h : isMagnitude cs = true) :
    ∀ ch ∈ cs, (!Numeral.isExponentMark ch) = true := by
  intro ch hch
  rcases mem_of_isMagnitude h ch hch with hdigit | rfl
  · have hlower : ch ≠ 'e' := ne_of_isDigit hdigit (by decide)
    have hupper : ch ≠ 'E' := ne_of_isDigit hdigit (by decide)
    simp [Numeral.isExponentMark, hlower, hupper]
  · decide

/-- They are made of digits and a point. -/
theorem Writes.mem (h : Writes cs n k) : ∀ ch ∈ cs, ch.isDigit = true ∨ ch = '.' :=
  mem_of_isMagnitude h.isMagnitude

/-- They have no sign to drop. -/
theorem Writes.dropSign_eq (h : Writes cs n k) : dropSign cs = cs := by
  obtain ⟨ch, more, rfl, hch⟩ := h.exists_head
  have hminus : ch ≠ '-' := ne_of_isDigit hch (by decide)
  have hplus : ch ≠ '+' := ne_of_isDigit hch (by decide)
  unfold dropSign
  split <;> simp_all

/-- They are a literal. -/
theorem Writes.isLiteral (h : Writes cs n k) : isLiteral cs = true := by
  rw [Decimal.isLiteral, h.dropSign_eq]
  exact h.isMagnitude

/-- They are one with a minus sign, too. -/
theorem Writes.isLiteral_minus (h : Writes cs n k) : Decimal.isLiteral ('-' :: cs) = true :=
  h.isMagnitude

/-- The signs that a literal may begin with. -/
def IsSign (sign : List Char) : Prop := sign = [] ∨ sign = ['-'] ∨ sign = ['+']

/-- The texts `[+-]? (d+ ('.' d*)? | '.' d+)`. -/
inductive Literal : List Char → Prop
  | whole {sign w : List Char} (hsign : IsSign sign) (hne : w ≠ []) (hw : allDigits w = true) :
      Literal (sign ++ w)
  | point {sign w f : List Char} (hsign : IsSign sign) (hw : allDigits w = true)
      (hf : allDigits f = true) (hne : w ≠ [] ∨ f ≠ []) : Literal (sign ++ (w ++ '.' :: f))

/-- Any text is a sign, perhaps an empty one, and what is left when it is dropped. -/
theorem exists_sign (cs : List Char) : ∃ sign, IsSign sign ∧ cs = sign ++ dropSign cs := by
  unfold dropSign
  split
  · exact ⟨['-'], .inr (.inl rfl), rfl⟩
  · exact ⟨['+'], .inr (.inr rfl), rfl⟩
  · exact ⟨[], .inl rfl, rfl⟩

/-- A sign before digits or a point is dropped. -/
theorem dropSign_append {sign : List Char} (hsign : IsSign sign)
    (hhead : ∀ ch ∈ cs.head?, ch.isDigit = true ∨ ch = '.') : dropSign (sign ++ cs) = cs := by
  rcases hsign with rfl | rfl | rfl
  · rw [List.nil_append]
    unfold dropSign
    split
    · exact absurd (hhead '-' rfl) (by decide)
    · exact absurd (hhead '+' rfl) (by decide)
    · rfl
  · rfl
  · rfl

/-- **The literals are the texts of their grammar.** -/
theorem isLiteral_iff : isLiteral cs = true ↔ Literal cs := by
  constructor
  · intro h
    obtain ⟨sign, hsign, hcs⟩ := exists_sign cs
    rw [hcs]
    rcases isMagnitude_iff.1 h with ⟨hne, hw⟩ | ⟨w, f, hdrop, hw, hf, hne⟩
    · exact .whole hsign hne hw
    · rw [hdrop]
      exact .point hsign hw hf hne
  · have hliteral {sign magnitude : List Char} (hsign : IsSign sign)
        (h : isMagnitude magnitude = true) : isLiteral (sign ++ magnitude) = true := by
      rwa [isLiteral, dropSign_append hsign fun ch hch =>
        mem_of_isMagnitude h ch (List.mem_of_head? hch)]
    rintro (⟨hsign, hne, hw⟩ | ⟨hsign, hw, hf, hne⟩)
    · exact hliteral hsign (isMagnitude_iff.2 (.inl ⟨hne, hw⟩))
    · exact hliteral hsign (isMagnitude_iff.2 (.inr ⟨_, _, rfl, hw, hf, hne⟩))

/-- The numeral of a decimal text, with the sign that stood before it. -/
theorem Writes.ofMagnitude_eq (h : Writes cs n k) (negative : Bool) :
    Numeral.ofMagnitude negative cs 0 = ⟨negative, n, -(k : Int)⟩ := by
  cases h with
  | whole _ hw =>
    rw [Numeral.ofMagnitude, splitPoint_of_allDigits hw]
    rfl
  | point _ hw _ _ =>
    rw [Numeral.ofMagnitude, splitPoint_append hw]
    simp

/-- The numeral of a magnitude, with the sign that stands before it. -/
theorem numeral_of_isMagnitude {sign : List Char} (hsign : IsSign sign)
    (h : isMagnitude cs = true) :
    Numeral.parse? (sign ++ cs) = some (Numeral.ofMagnitude (decide (sign = ['-'])) cs 0) := by
  have hchars := mem_of_isMagnitude h
  have hdrop : dropSign (sign ++ cs) = cs :=
    dropSign_append hsign fun ch hch => hchars ch (List.mem_of_head? hch)
  have hmarks := not_isExponentMark h
  have hminus : (sign ++ cs).head? = some '-' ↔ sign = ['-'] := by
    rcases hsign with rfl | rfl | rfl
    · simp only [List.nil_append, List.nil_eq, reduceCtorEq, iff_false]
      intro hhead
      exact absurd (hchars '-' (List.mem_of_head? hhead)) (by decide)
    · simp
    · simp
  simp only [Numeral.parse?, hdrop, List.takeWhile_eq_self_iff.2 hmarks,
    List.dropWhile_eq_nil_iff.2 hmarks, h, if_true, hminus]

end Reading
end Decimal

namespace Binary64

/-- A numeral with places is a fraction. -/
theorem ofNumeral_eq (negative : Bool) (n k : Nat) :
    ofNumeral ⟨negative, n, -(k : Int)⟩ = ofFraction negative n (10 ^ k) := by
  cases k with
  | zero =>
    show ofFraction negative (n * Decimal.tenTo 0) 1 = _
    rw [Decimal.tenTo_eq, Nat.pow_zero, Nat.mul_one]
  | succ k => rfl

end Binary64

namespace Decimal

section Reading

variable {cs : List Char} {n k : Nat}

/-- A decimal text is read as the number nearest to its fraction, with the sign that stands before
it. -/
theorem Writes.parse?_append (h : Writes cs n k) {sign : List Char} (hsign : IsSign sign) :
    Binary64.parse? (sign ++ cs) = some (.ofFraction (decide (sign = ['-'])) n (10 ^ k)) := by
  rw [Binary64.parse?, numeral_of_isMagnitude hsign h.isMagnitude, Option.map_some,
    h.ofMagnitude_eq, Binary64.ofNumeral_eq]

/-- **They are read as the number nearest to the fraction.** -/
theorem Writes.parse?_eq (h : Writes cs n k) :
    Binary64.parse? cs = some (.ofFraction false n (10 ^ k)) :=
  h.parse?_append (.inl rfl)

/-- With a minus sign they are read as that number below zero. -/
theorem Writes.parse?_minus (h : Writes cs n k) :
    Binary64.parse? ('-' :: cs) = some (.ofFraction true n (10 ^ k)) :=
  h.parse?_append (.inr (.inl rfl))

end Reading

/-! ### Printing -/

/-- Digits in front count for as many powers of ten as there are digits behind them. -/
theorem natOfDigits_append (w f : List Char) :
    natOfDigits (w ++ f) = natOfDigits w * 10 ^ f.length + natOfDigits f := by
  rw [natOfDigits, Nat.ofDigitChars_append, Nat.ofDigitChars_eq_ofDigitChars_zero, Nat.mul_comm]
  rfl

/-- The digits of a number are read back as the number. -/
theorem natOfDigits_digitsOf (n : Nat) : natOfDigits (digitsOf n) = n :=
  Nat.ofDigitChars_ten_toDigits

theorem allDigits_digitsOf (n : Nat) : allDigits (digitsOf n) = true :=
  allDigits_iff.2 fun _ hch => Nat.isDigit_of_mem_toDigits (by decide) (by decide) hch

/-- The digits of a number stand for it. -/
theorem writes_digitsOf (n : Nat) : Writes (digitsOf n) n 0 := by
  have h := Writes.whole (w := digitsOf n) Nat.toDigits_ne_nil (allDigits_digitsOf n)
  rwa [natOfDigits_digitsOf] at h

/-- Zeros alone are zero. -/
theorem natOfDigits_zeros (z : Nat) : natOfDigits (List.replicate z '0') = 0 := by
  rw [natOfDigits, Nat.ofDigitChars_replicate_zero, Nat.mul_zero]

/-- Two texts are digits together exactly if both are. -/
theorem allDigits_append (w f : List Char) :
    allDigits (w ++ f) = true ↔ allDigits w = true ∧ allDigits f = true := by
  simp [allDigits]

section Padded

variable {length n : Nat}

/-- Zeros in front fill a number up to its length. -/
theorem length_padded (hpos : 0 < length) (hn : n < 10 ^ length) :
    (padded length n).length = length := by
  have hle : (digitsOf n).length ≤ length :=
    (Nat.length_toDigits_le_iff (by decide) hpos).2 hn
  simp [padded, hle]

/-- They do not change its value. -/
theorem natOfDigits_padded (length n : Nat) : natOfDigits (padded length n) = n := by
  rw [padded, natOfDigits_append, natOfDigits_zeros, Nat.zero_mul, Nat.zero_add,
    natOfDigits_digitsOf]

theorem allDigits_padded (length n : Nat) : allDigits (padded length n) = true := by
  rw [padded, allDigits_append]
  refine ⟨?_, allDigits_digitsOf n⟩
  rw [allDigits_iff]
  intro ch hch
  rw [List.eq_of_mem_replicate hch]
  decide

end Padded

/-- Zeros at the end are all that `dropLastZeros` takes away. -/
theorem exists_dropLastZeros_append (cs : List Char) :
    ∃ z, cs = dropLastZeros cs ++ List.replicate z '0' := by
  refine ⟨(cs.reverse.takeWhile (· = '0')).length, ?_⟩
  have hzeros : cs.reverse.takeWhile (· = '0') =
      List.replicate (cs.reverse.takeWhile (· = '0')).length '0' := by
    rw [List.eq_replicate_iff]
    refine ⟨rfl, fun ch hch => ?_⟩
    simpa using List.mem_takeWhile_imp hch
  have hsplit := congrArg List.reverse
    (List.takeWhile_append_dropWhile (p := (· = '0')) (l := cs.reverse))
  rw [List.reverse_append, List.reverse_reverse, hzeros, List.reverse_replicate] at hsplit
  exact hsplit.symm

/-- A positional decimal stands for the fraction that it was made of. -/
theorem exists_writes_positional (n places : Nat) :
    ∃ m k, Writes (positional n places) m k ∧ m * 10 ^ places = n * 10 ^ k := by
  by_cases hplaces : places = 0
  · subst hplaces
    refine ⟨n, 0, ?_, rfl⟩
    simpa [positional, tenTo_eq] using writes_digitsOf n
  · have hpos : 0 < 10 ^ places := Nat.pow_pos (by decide)
    have hlength := length_padded (Nat.pos_of_ne_zero hplaces) (Nat.mod_lt n hpos)
    have hvalue := natOfDigits_padded places (n % 10 ^ places)
    have hdigits := allDigits_padded places (n % 10 ^ places)
    obtain ⟨z, hz⟩ := exists_dropLastZeros_append (padded places (n % 10 ^ places))
    simp only [positional, tenTo_eq, if_neg hplaces]
    generalize dropLastZeros (padded places (n % 10 ^ places)) = f at *
    rw [hz] at hlength hvalue hdigits
    rw [List.length_append, List.length_replicate] at hlength
    rw [natOfDigits_append, natOfDigits_zeros, List.length_replicate, Nat.add_zero] at hvalue
    have hf := ((allDigits_append _ _).1 hdigits).1
    -- whole part and fraction together are the number without the zeros at its end
    have hcross : (n / 10 ^ places * 10 ^ f.length + natOfDigits f) * 10 ^ places =
        n * 10 ^ f.length := by
      have hpow : 10 ^ places = 10 ^ f.length * 10 ^ z := by
        rw [← Nat.pow_add, hlength]
      have hn := Nat.div_add_mod n (10 ^ places)
      calc (n / 10 ^ places * 10 ^ f.length + natOfDigits f) * 10 ^ places
          = (n / 10 ^ places * 10 ^ f.length + natOfDigits f) * (10 ^ f.length * 10 ^ z) := by
            rw [← hpow]
        _ = (10 ^ f.length * 10 ^ z * (n / 10 ^ places) + natOfDigits f * 10 ^ z) *
              10 ^ f.length := by
            ring
        _ = n * 10 ^ f.length := by rw [← hpow, hvalue, hn]
    by_cases hnil : f = []
    · subst hnil
      rw [if_pos rfl]
      refine ⟨n / 10 ^ places, 0, writes_digitsOf _, ?_⟩
      simpa [natOfDigits] using hcross
    · rw [if_neg hnil]
      have hwrites := Writes.point (w := digitsOf (n / 10 ^ places)) Nat.toDigits_ne_nil
        (allDigits_digitsOf _) hnil hf
      rw [natOfDigits_append, natOfDigits_digitsOf] at hwrites
      exact ⟨_, _, hwrites, hcross⟩

end Decimal
end ImageCheck
