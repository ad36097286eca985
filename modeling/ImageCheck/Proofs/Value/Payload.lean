/-
# Whole parts of numbers of any size

`SPEC_FULL` §3: payloads are truncated toward zero, saturating at 32 bits;
`truncate_to_i32`.

A number of a filter or an area is written as a decimal literal of up to 4096 characters. It is
rounded to 64 bits, cut to its whole part and kept within 32 bits. None of the three steps is
exact for all literals, but the result is as good as the format allows:

| exact value `q` | what is kept |
| --- | --- |
| a whole number | `q`, kept within 32 bits |
| any other | the whole part of `q`, or the next whole number away from zero, within 32 bits |

`Decimal.Denotes` gives a literal its exact value, a fraction, and `Binary64.Rounds` says that a
number is such a fraction rounded. Two facts carry everything. Rounding keeps the order of
fractions (`Rounds.truncate_le`), and it keeps whole numbers of 53 bits as they are
(`exists_rounds_truncate_eq`). So a whole number beyond 32 bits rounds to one beyond 32 bits,
and a fraction between two neighbouring whole numbers stays between what these become.
-/

import ImageCheck.Proofs.Number.Digits
import ImageCheck.Proofs.Number.Rounding
import ImageCheck.Value.Token
import Mathlib.Algebra.Order.Field.Basic
import Mathlib.Data.Rat.Floor
import Mathlib.Order.Interval.Set.UnorderedInterval
import Mathlib.Tactic.FieldSimp
import Mathlib.Tactic.Linarith

namespace ImageCheck

/-- A fraction with a sign. -/
def withSign (negative : Bool) (q : ℚ) : ℚ := if negative then -q else q

/-- A whole number, or the nearest one of 32 bits with a sign. -/
def clamp32 (z : ℤ) : ℤ := max (-2147483648) (min 2147483647 z)

/-- A fraction without what stands behind the point. -/
def wholePart (q : ℚ) : ℤ := if 0 ≤ q then ⌊q⌋ else ⌈q⌉

/-! ### The exact value of a literal -/

namespace Decimal

/-- A literal stands for a fraction: the number before the point, and the digits behind it over
their power of ten. -/
inductive Denotes : List Char → ℚ → Prop
  | whole {sign w : List Char} (hsign : IsSign sign) (hne : w ≠ []) (hw : allDigits w = true) :
      Denotes (sign ++ w) (withSign (decide (sign = ['-'])) (natOfDigits w))
  | point {sign w f : List Char} (hsign : IsSign sign) (hw : allDigits w = true)
      (hf : allDigits f = true) (hne : w ≠ [] ∨ f ≠ []) :
      Denotes (sign ++ (w ++ '.' :: f))
        (withSign (decide (sign = ['-'])) (natOfDigits w + natOfDigits f / 10 ^ f.length))

section Literal

variable {cs : List Char} {q : ℚ}

/-- The literals are the texts that stand for a fraction. -/
theorem exists_denotes_iff : (∃ q, Denotes cs q) ↔ Literal cs := by
  constructor
  · rintro ⟨q, ⟨hsign, hne, hw⟩ | ⟨hsign, hw, hf, hne⟩⟩
    · exact .whole hsign hne hw
    · exact .point hsign hw hf hne
  · rintro (⟨hsign, hne, hw⟩ | ⟨hsign, hw, hf, hne⟩)
    · exact ⟨_, .whole hsign hne hw⟩
    · exact ⟨_, .point hsign hw hf hne⟩

/-- The numeral of a literal is its exact value. -/
theorem Denotes.exists_numeral (h : Denotes cs q) :
    ∃ (negative : Bool) (n k : ℕ), Numeral.parse? cs = some ⟨negative, n, -(k : ℤ)⟩ ∧
      q = withSign negative (n / 10 ^ k) := by
  rcases h with @⟨sign, w, hsign, hne, hw⟩ | @⟨sign, w, f, hsign, hw, hf, hne⟩
  · have hmagnitude : isMagnitude w = true := isMagnitude_iff.2 (.inl ⟨hne, hw⟩)
    refine ⟨decide (sign = ['-']), natOfDigits w, 0, ?_, by simp⟩
    rw [numeral_of_isMagnitude hsign hmagnitude, Numeral.ofMagnitude, splitPoint_of_allDigits hw]
    rfl
  · have hmagnitude : isMagnitude (w ++ '.' :: f) = true :=
      isMagnitude_iff.2 (.inr ⟨w, f, rfl, hw, hf, hne⟩)
    refine ⟨decide (sign = ['-']), natOfDigits (w ++ f), f.length, ?_, ?_⟩
    · rw [numeral_of_isMagnitude hsign hmagnitude, Numeral.ofMagnitude, splitPoint_append hw]
      simp
    · congr 1
      rw [natOfDigits_append]
      push_cast
      field_simp

/-- A literal has one exact value. -/
theorem Denotes.unique {r : ℚ} (hq : Denotes cs q) (hr : Denotes cs r) : q = r := by
  obtain ⟨negative, n, k, hnumeral, rfl⟩ := hq.exists_numeral
  obtain ⟨negative', n', k', hnumeral', rfl⟩ := hr.exists_numeral
  have hsame := Option.some.inj (hnumeral.symm.trans hnumeral')
  obtain ⟨rfl, rfl, hk⟩ := Numeral.mk.injEq .. ▸ hsame
  obtain rfl : k = k' := by omega
  rfl

end Literal

end Decimal

namespace Binary64

/-! ### Rounded fractions -/

/-- The number `x` is the fraction `q`, rounded to the nearest. -/
def Rounds (q : ℚ) (x : Binary64) : Prop :=
  ∃ n d, 0 < d ∧ x.IsRounded n d ∧ q = withSign x.negative (n / d)

section Rounds

variable {q r : ℚ} {x y : Binary64}

/-- A number is a fraction rounded exactly if it is made from one that equals it. -/
theorem rounds_iff :
    Rounds q x ↔ ∃ negative n d, 0 < d ∧ x = ofFraction negative n d ∧
      q = withSign negative (n / d) := by
  constructor
  · rintro ⟨n, d, hd, hround, hq⟩
    exact ⟨x.negative, n, d, hd, (isRounded_iff hd).1 hround, hq⟩
  · rintro ⟨negative, n, d, hd, rfl, hq⟩
    exact ⟨n, d, hd, isRounded_ofFraction negative hd, hq⟩

/-- The whole part of the nearest number does not go down where the fraction goes up. -/
theorem whole_nearest_le {n d n' d' : ℕ} (hd : 0 < d) (hd' : 0 < d') (h : (n / d : ℚ) ≤ n' / d') :
    units (nearest n d) / one ≤ units (nearest n' d') / one := by
  rw [div_le_div_iff₀ (by exact_mod_cast hd) (by exact_mod_cast hd')] at h
  have hnearest := nearest_le_nearest hd hd' (by exact_mod_cast h)
  exact Nat.div_le_div_right (strictMono_units.monotone hnearest)

theorem cast_overflow : ((2 ^ 1024 - 2 ^ 970 : ℕ) : ℚ) = 2 ^ 1024 - 2 ^ 970 := by
  have hle : 2 ^ 970 ≤ 2 ^ 1024 := by decide +kernel
  rw [Nat.cast_sub hle, Nat.cast_pow, Nat.cast_pow, Nat.cast_ofNat]

/-- A rounded fraction is finite below the middle between the largest finite number and infinity. -/
theorem Rounds.isFinite_iff (h : Rounds q x) : x.isFinite = true ↔ |q| < 2 ^ 1024 - 2 ^ 970 := by
  obtain ⟨negative, n, d, hd, rfl, rfl⟩ := rounds_iff.1 h
  have hdpos : (0 : ℚ) < d := by exact_mod_cast hd
  have habs : |withSign negative (n / d)| = (n / d : ℚ) := by
    cases negative <;> simp [withSign, abs_of_nonneg, div_nonneg]
  rw [isFinite_ofFraction_iff negative hd, habs, div_lt_iff₀ hdpos, ← cast_overflow]
  exact_mod_cast Iff.rfl

/-- The whole part of a larger fraction, rounded, is no smaller. -/
theorem Rounds.truncate_le (hx : Rounds q x) (hy : Rounds r y) (hle : q ≤ r) :
    x.truncate ≤ y.truncate := by
  obtain ⟨negative, n, d, hd, rfl, rfl⟩ := rounds_iff.1 hx
  obtain ⟨negative', n', d', hd', rfl, rfl⟩ := rounds_iff.1 hy
  have hpos : (0 : ℚ) ≤ n / d := by positivity
  have hpos' : (0 : ℚ) ≤ n' / d' := by positivity
  simp only [truncate, magnitude, ofFraction, withSign] at hle ⊢
  cases negative <;> cases negative' <;> simp only [if_true, Bool.false_eq_true, if_false] at hle ⊢
  · exact_mod_cast whole_nearest_le hd hd' hle
  · -- one is not negative and the other is no larger than zero, so both are zero
    have hnone : units (nearest 0 1) / one = 0 := by decide +kernel
    have hle0 : (n / d : ℚ) ≤ (0 : ℕ) / (1 : ℕ) := by
      rw [Nat.cast_zero, zero_div]
      exact hle.trans (neg_nonpos.2 hpos')
    have hle0' : (n' / d' : ℚ) ≤ (0 : ℕ) / (1 : ℕ) := by
      rw [Nat.cast_zero, zero_div]
      exact neg_nonneg.1 (hpos.trans hle)
    have hzero := whole_nearest_le hd Nat.one_pos hle0
    have hzero' := whole_nearest_le hd' Nat.one_pos hle0'
    omega
  · have hnonneg (m : ℕ) : (0 : ℤ) ≤ m := Int.natCast_nonneg m
    exact (neg_nonpos.2 (hnonneg _)).trans (hnonneg _)
  · exact neg_le_neg (by exact_mod_cast whole_nearest_le hd' hd (neg_le_neg_iff.1 hle))

/-- A whole number of 53 bits is rounded to itself. -/
theorem exists_rounds_truncate_eq {z : ℤ} (hz : z.natAbs < 2 ^ 53) :
    ∃ y, Rounds z y ∧ y.truncate = z := by
  rcases lt_or_ge z 0 with hneg | hpos
  · refine ⟨_, rounds_iff.2 ⟨true, z.natAbs, 1, Nat.one_pos, rfl, ?_⟩, ?_⟩
    · simp [withSign, Nat.cast_natAbs, abs_of_neg hneg]
    · rw [truncate_ofFraction_whole true hz, if_pos rfl]
      omega
  · refine ⟨_, rounds_iff.2 ⟨false, z.natAbs, 1, Nat.one_pos, rfl, ?_⟩, ?_⟩
    · simp [withSign, Nat.cast_natAbs, abs_of_nonneg hpos]
    · rw [truncate_ofFraction_whole false hz, if_neg Bool.false_ne_true]
      omega

/-- A fraction from a whole number of 53 bits on is rounded to something from it on. -/
theorem Rounds.le_truncate {z : ℤ} (h : Rounds q x) (hz : z.natAbs < 2 ^ 53) (hle : z ≤ q) :
    z ≤ x.truncate := by
  obtain ⟨y, hy, heq⟩ := exists_rounds_truncate_eq hz
  exact heq ▸ hy.truncate_le h hle

/-- A fraction up to a whole number of 53 bits is rounded to something up to it. -/
theorem Rounds.truncate_le_of_le {z : ℤ} (h : Rounds q x) (hz : z.natAbs < 2 ^ 53) (hle : q ≤ z) :
    x.truncate ≤ z := by
  obtain ⟨y, hy, heq⟩ := exists_rounds_truncate_eq hz
  exact heq ▸ h.truncate_le hy hle

/-! ### Within 32 bits -/

/-- The part that is kept is the whole part, within 32 bits. -/
theorem toInt_truncate32 (x : Binary64) : x.truncate32.toInt = clamp32 x.truncate := by
  rw [truncate32, clamp32]
  apply Int32.toInt_ofInt_of_le <;> omega

/-- Keeping numbers within 32 bits keeps their order. -/
theorem clamp32_le_clamp32 {z w : ℤ} (h : z ≤ w) : clamp32 z ≤ clamp32 w := by
  unfold clamp32
  omega

/-- What is kept is between the whole numbers next to the fraction, each kept within 32 bits. -/
theorem Rounds.clamp32_bounds (h : Rounds q x) :
    clamp32 ⌊q⌋ ≤ x.truncate32.toInt ∧ x.truncate32.toInt ≤ clamp32 ⌈q⌉ := by
  rw [toInt_truncate32]
  have hsmall (z : ℤ) : (clamp32 z).natAbs < 2 ^ 53 := by
    unfold clamp32
    omega
  constructor
  · by_cases hlow : ⌊q⌋ < -2147483648
    · simp only [clamp32]
      omega
    · have hle : clamp32 ⌊q⌋ ≤ ⌊q⌋ := by
        unfold clamp32
        omega
      have hwhole := h.le_truncate (hsmall _) (Int.le_floor.1 hle)
      simp only [clamp32] at hwhole ⊢
      omega
  · by_cases hhigh : 2147483647 < ⌈q⌉
    · simp only [clamp32]
      omega
    · have hle : ⌈q⌉ ≤ clamp32 ⌈q⌉ := by
        unfold clamp32
        omega
      have hwhole := h.truncate_le_of_le (hsmall _) (Int.ceil_le.1 hle)
      simp only [clamp32] at hwhole ⊢
      omega

/-- **A whole number is kept exactly**, within 32 bits. -/
theorem Rounds.truncate32_whole {z : ℤ} (h : Rounds z x) : x.truncate32.toInt = clamp32 z := by
  obtain ⟨hlow, hhigh⟩ := h.clamp32_bounds
  rw [Int.floor_intCast] at hlow
  rw [Int.ceil_intCast] at hhigh
  exact hhigh.antisymm hlow

/-- **A fraction is cut to its whole part**, or rounded up to the next whole number on the side
away from zero. -/
theorem Rounds.truncate32_mem (h : Rounds q x) :
    x.truncate32.toInt ∈ Set.uIcc (clamp32 (wholePart q)) (clamp32 (wholePart q + q.num.sign)) := by
  obtain ⟨hlow, hhigh⟩ := h.clamp32_bounds
  rw [Set.mem_uIcc]
  rcases lt_trichotomy q 0 with hneg | rfl | hpos
  · right
    have hnext : ⌈q⌉ + -1 ≤ ⌊q⌋ := by
      have := Int.ceil_le_floor_add_one q
      omega
    rw [wholePart, if_neg (not_le.2 hneg), Int.sign_eq_neg_one_of_neg (Rat.num_neg.2 hneg)]
    exact ⟨(clamp32_le_clamp32 hnext).trans hlow, hhigh⟩
  · left
    simpa [wholePart] using And.intro hlow hhigh
  · left
    rw [wholePart, if_pos hpos.le, Int.sign_eq_one_of_pos (Rat.num_pos.2 hpos)]
    exact ⟨hlow, hhigh.trans (clamp32_le_clamp32 (Int.ceil_le_floor_add_one q))⟩

/-- **A larger fraction is kept as no smaller a number.** -/
theorem Rounds.truncate32_le (hx : Rounds q x) (hy : Rounds r y) (hle : q ≤ r) :
    x.truncate32 ≤ y.truncate32 := by
  rw [Int32.le_iff_toInt_le, toInt_truncate32, toInt_truncate32]
  exact clamp32_le_clamp32 (hx.truncate_le hy hle)

end Rounds
end Binary64

/-! ### Reading a literal -/

/-- A literal is read as its exact value, rounded. -/
theorem Decimal.Denotes.exists_parse? {cs : List Char} {q : ℚ} (h : Decimal.Denotes cs q) :
    ∃ x, Binary64.parse? cs = some x ∧ Binary64.Rounds q x := by
  obtain ⟨negative, n, k, hnumeral, rfl⟩ := h.exists_numeral
  refine ⟨_, by rw [Binary64.parse?, hnumeral, Option.map_some, Binary64.ofNumeral_eq], ?_⟩
  refine Binary64.rounds_iff.2 ⟨negative, n, 10 ^ k, Nat.pow_pos (by decide), rfl, ?_⟩
  rw [Nat.cast_pow, Nat.cast_ofNat]

section Number

variable {t : Token} {q : ℚ}

/-- What a short literal is read as: its exact value, rounded, if that is finite. -/
theorem Token.exists_number_eq (h : Decimal.Denotes t.text q) (hshort : t.text.length ≤ 4096) :
    ∃ x, Binary64.Rounds q x ∧ t.number =
      if x.isFinite then .ok x else .error (.invalidNumber (String.ofList t.text) t.start) := by
  have hliteral := Decimal.exists_denotes_iff.1 ⟨q, h⟩
  obtain ⟨x, hparse, hrounds⟩ := h.exists_parse?
  have hne : t.text ≠ [] := by
    intro hnil
    rw [hnil] at hparse
    cases hparse
  have hlong : ¬ maxTokenLength < t.text.length := Nat.not_lt.2 hshort
  refine ⟨x, hrounds, ?_⟩
  rw [number, check, if_neg hne, if_neg hlong]
  simp only [Decimal.isLiteral_iff.2 hliteral, if_true, hparse]

/-- A token with a number is read as that number. -/
theorem Token.parse?_of_number {x : Binary64} (h : t.number = .ok x) :
    Binary64.parse? t.text = some x := by
  simp only [number, check] at h
  split_ifs at h with hnil hlong
  by_cases hliteral : Decimal.isLiteral t.text = true
  · simp only [hliteral, if_true] at h
    split at h
    · rename_i y hparse
      split_ifs at h
      cases h
      exact hparse
    · cases h
  · simp only [if_neg hliteral] at h
    cases h

/-- The number of a literal is its exact value, rounded. -/
theorem Token.rounds_of_number {x : Binary64} (h : Decimal.Denotes t.text q)
    (hx : t.number = .ok x) : Binary64.Rounds q x := by
  obtain ⟨y, hparse, hy⟩ := h.exists_parse?
  obtain rfl := Option.some.inj (hparse.symm.trans (parse?_of_number hx))
  exact hy

end Number

/-- **Numbers are right at every magnitude.** A literal of at most 4096 characters has one exact
value `q`. It is a number if `q` is below the middle between the largest finite number and
infinity, and else an invalid one. What is kept of the number in 32 bits is `q` itself if it is
whole, and otherwise its whole part or the next whole number away from zero, all kept within
32 bits; and it does not go down where `q` goes up. -/
theorem number_of_literal {c : Cursor} (hliteral : Decimal.Literal c.token.text)
    (hshort : c.token.text.length ≤ 4096) :
    ∃ q : ℚ, (∀ r, Decimal.Denotes c.token.text r ↔ r = q) ∧
      ((∃ x, c.number.1 = .ok x) ↔ |q| < 2 ^ 1024 - 2 ^ 970) ∧
      (¬ |q| < 2 ^ 1024 - 2 ^ 970 →
        c.number.1 = .error (.invalidNumber (String.ofList c.token.text) c.token.start)) ∧
      ∀ x, c.number.1 = .ok x → Binary64.Rounds q x ∧
        (∀ z : ℤ, q = z → x.truncate32.toInt = clamp32 z) ∧
        x.truncate32.toInt ∈ Set.uIcc (clamp32 (wholePart q)) (clamp32 (wholePart q + q.num.sign)) ∧
        ∀ (d : Cursor) (r : ℚ) (y : Binary64), Decimal.Denotes d.token.text r →
          d.number.1 = .ok y → q ≤ r → x.truncate32 ≤ y.truncate32 := by
  obtain ⟨q, hq⟩ := Decimal.exists_denotes_iff.2 hliteral
  obtain ⟨x, hrounds, hnumber⟩ := Token.exists_number_eq hq hshort
  have hfinite := hrounds.isFinite_iff
  refine ⟨q, fun r => ⟨fun hr => hr.unique hq, fun hr => hr ▸ hq⟩, ?_, ?_, ?_⟩
  · show (∃ x, c.token.number = .ok x) ↔ _
    rw [hnumber, ← hfinite]
    split <;> simp_all
  · intro hlarge
    show c.token.number = _
    rw [hnumber, if_neg (mt hfinite.1 hlarge)]
  · intro y hy
    have hround := Token.rounds_of_number hq hy
    refine ⟨hround, ?_, hround.truncate32_mem, ?_⟩
    · rintro z rfl
      exact hround.truncate32_whole
    · intro d r w hr hw hle
      exact hround.truncate32_le (Token.rounds_of_number hr hw) hle

/-- The largest number of 32 bits stands for all the whole numbers above it. -/
theorem number_of_literal_huge :
    ∃ x, (Cursor.ofList "  +009999999999999999999999.".toList).number.1 = .ok x ∧
      x.truncate32.toInt = 2147483647 := by
  have htoken : (Cursor.ofList "  +009999999999999999999999.".toList).token.text =
      ['+'] ++ ("009999999999999999999999".toList ++ '.' :: []) := by decide +kernel
  have hdenotes : Decimal.Denotes (['+'] ++ ("009999999999999999999999".toList ++ '.' :: [])) _ :=
    .point (.inr (.inr rfl)) (by decide) (by decide) (.inl (by decide))
  obtain ⟨q, hq, hfinite, -, hpayload⟩ :=
    number_of_literal (c := .ofList "  +009999999999999999999999.".toList)
      (by rw [htoken]; exact Decimal.exists_denotes_iff.1 ⟨_, hdenotes⟩) (by rw [htoken]; decide)
  have hdigits : Decimal.natOfDigits "009999999999999999999999".toList =
      9999999999999999999999 := by decide +kernel
  have hvalue : q = (9999999999999999999999 : ℤ) := by
    rw [← (hq _).1 (by rw [htoken]; exact hdenotes), hdigits]
    simp [withSign, Decimal.natOfDigits]
  have hlt : 9999999999999999999999 < 2 ^ 1024 - 2 ^ 970 := by decide +kernel
  obtain ⟨x, hx⟩ := hfinite.2 (by
    rw [hvalue, ← Binary64.cast_overflow, Int.cast_ofNat, Nat.abs_ofNat]
    exact_mod_cast hlt)
  exact ⟨x, hx, (hpayload x hx).2.1 _ hvalue⟩

end ImageCheck
