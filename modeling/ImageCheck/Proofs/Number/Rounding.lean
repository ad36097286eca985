/-
# The nearest rank

`nearest` scales a fraction, divides once and rounds the quotient. This module says
which rank that is without the division: the one whose value is no farther from the
fraction than the values of its two neighbours, and of two that are equally far the
even one. `IsNearest` states it with midpoints, in natural numbers, and
`nearest_eq_iff` is the result.

The ranks of one binade are equally far apart: from `exists_scale` on, a rank is a
coefficient `q` of 53 bits and a scale `s`, and its value is `q · 2^s` units. The
bottom of a binade is the top of the one below, which is why `units_of_scale` lets
`q` be `2^53` as well.

The rank of infinity is a rank like the others, at `2^1024`. So a fraction is infinite
from the middle between `2^1024` and the largest finite value on
(`isFinite_ofFraction_iff`). `IsRounded` puts the two together, and `isRounded_iff` says
that `ofFraction` is the one way to round.
-/

import ImageCheck.Number.Binary64
import Mathlib.Order.Monotone.Basic
import Mathlib.Tactic.Ring

namespace ImageCheck
namespace Binary64

/-- The rank whose value is nearest to `a / b` units: `a / b` lies between the midpoints to its
neighbours, and on one of them only if the rank is even. -/
structure IsNearest (rank a b : Nat) : Prop where
  /-- The fraction is not below the lower midpoint. -/
  low : (units (rank - 1) + units rank) * b ≤ 2 * a
  /-- The fraction is not above the upper midpoint. -/
  high : 2 * a ≤ (units rank + units (rank + 1)) * b
  /-- An odd rank leaves the midpoints to its neighbours. -/
  odd : rank % 2 = 1 →
    (units (rank - 1) + units rank) * b ≠ 2 * a ∧ 2 * a ≠ (units rank + units (rank + 1)) * b

theorem twoTo_eq (n : Nat) : twoTo n = 2 ^ n := rfl

/-- The value at a rank, with powers of two. -/
theorem units_eq (rank : Nat) :
    units rank =
      if rank < 2 ^ 52 then rank else (2 ^ 52 + rank % 2 ^ 52) * 2 ^ (rank / 2 ^ 52 - 1) := rfl

theorem one_pos : 0 < one := by
  decide +kernel

/-! ### Division to the nearest -/

/-- Rounding to the nearest does not go below the quotient. -/
theorem div_le_divNearest (a b : Nat) : a / b ≤ divNearest a b := by
  simp only [divNearest]
  split <;> omega

/-- It goes at most one above the quotient. -/
theorem divNearest_le (a b : Nat) : divNearest a b ≤ a / b + 1 := by
  simp only [divNearest]
  split <;> omega

/-- A quotient to the nearest is off by at most a half, and by a half only if it is even. -/
theorem divNearest_spec {a b : Nat} (hb : 0 < b) :
    2 * a ≤ (2 * divNearest a b + 1) * b ∧ 2 * divNearest a b * b ≤ 2 * a + b ∧
      (divNearest a b % 2 = 1 →
        2 * a ≠ (2 * divNearest a b + 1) * b ∧ 2 * divNearest a b * b ≠ 2 * a + b) := by
  have hdiv := Nat.div_add_mod a b
  have hmod := Nat.mod_lt a hb
  simp only [divNearest]
  generalize a / b = q at *
  generalize a % b = m at *
  have hq : (2 * q + 1) * b = 2 * (b * q) + b := by ring
  have hq' : 2 * q * b = 2 * (b * q) := by ring
  have hs : (2 * (q + 1) + 1) * b = 2 * (b * q) + 3 * b := by ring
  have hs' : 2 * (q + 1) * b = 2 * (b * q) + 2 * b := by ring
  split
  · rw [hq, hq']
    omega
  · rw [hs, hs']
    omega

/-- A common factor does not change a quotient to the nearest. -/
theorem divNearest_mul_right (a b : Nat) {c : Nat} (hc : 0 < c) :
    divNearest (a * c) (b * c) = divNearest a b := by
  have hlt : 2 * (a % b * c) < b * c ↔ 2 * (a % b) < b := by
    rw [← Nat.mul_assoc, Nat.mul_lt_mul_right hc]
  have heq : 2 * (a % b * c) = b * c ↔ 2 * (a % b) = b := by
    rw [← Nat.mul_assoc, Nat.mul_left_inj (Nat.ne_of_gt hc)]
  simp only [divNearest, Nat.mul_div_mul_right _ _ hc, Nat.mul_mod_mul_right, hlt, heq]

/-! ### Ranks by binades -/

/-- The value of a coefficient at a scale. -/
theorem units_of_scale {s q : Nat} (hq : q ≤ 2 ^ 53) (h : s = 0 ∨ 2 ^ 52 ≤ q) :
    units (s * 2 ^ 52 + q) = q * 2 ^ s := by
  by_cases hsmall : q < 2 ^ 52
  · obtain rfl : s = 0 := by omega
    rw [Nat.zero_mul, Nat.zero_add, units_eq, if_pos hsmall, Nat.pow_zero, Nat.mul_one]
  · rw [units_eq, if_neg (by omega)]
    by_cases htop : q = 2 ^ 53
    · -- the top of a binade is the bottom of the next
      have hdiv : (s * 2 ^ 52 + q) / 2 ^ 52 - 1 = s + 1 := by omega
      have hmod : (s * 2 ^ 52 + q) % 2 ^ 52 = 0 := by omega
      rw [hdiv, hmod, htop]
      ring
    · have hdiv : (s * 2 ^ 52 + q) / 2 ^ 52 - 1 = s := by omega
      have hmod : (s * 2 ^ 52 + q) % 2 ^ 52 = q - 2 ^ 52 := by omega
      rw [hdiv, hmod, Nat.add_sub_cancel' (Nat.le_of_not_lt hsmall)]

/-- Every rank has a scale and a coefficient below `2^53`. -/
theorem exists_scale (rank : Nat) :
    ∃ s q, rank = s * 2 ^ 52 + q ∧ q < 2 ^ 53 ∧ (s = 0 ∨ 2 ^ 52 ≤ q) :=
  ⟨rank / 2 ^ 52 - 1, rank - (rank / 2 ^ 52 - 1) * 2 ^ 52, by omega, by omega, by omega⟩

/-- A higher rank has a larger value. -/
theorem strictMono_units : StrictMono units := by
  refine strictMono_nat_of_lt_succ fun rank => ?_
  obtain ⟨s, q, rfl, hq, h⟩ := exists_scale rank
  rw [Nat.add_assoc, units_of_scale (Nat.le_of_lt hq) h, units_of_scale hq (by omega)]
  exact Nat.mul_lt_mul_of_pos_right (Nat.lt_succ_self q) (Nat.two_pow_pos s)

/-- Twice the midpoint between a rank and the next in a binade. -/
theorem units_add_units_succ {s q : Nat} (hq : q < 2 ^ 53) (h : s = 0 ∨ 2 ^ 52 ≤ q) :
    units (s * 2 ^ 52 + q) + units (s * 2 ^ 52 + q + 1) = (2 * q + 1) * 2 ^ s := by
  have hnext : q + 1 ≤ 2 ^ 53 := hq
  rw [Nat.add_assoc, units_of_scale (Nat.le_of_lt hq) h, units_of_scale hnext (by omega)]
  ring

/-! ### There is one nearest rank -/

section Unique

variable {rank rank' a b : Nat}

/-- The nearest rank does not go down where the fraction goes up. -/
theorem IsNearest.le_of_le {a' : Nat} (hb : 0 < b) (h : IsNearest rank a b)
    (h' : IsNearest rank' a' b) (hle : a ≤ a') : rank ≤ rank' := by
  by_contra hlt
  have hmid : units rank' ≤ units (rank - 1) := strictMono_units.monotone (by omega)
  have hmid' : units (rank' + 1) ≤ units rank := strictMono_units.monotone (by omega)
  have hmiddles : (units rank' + units (rank' + 1)) * b ≤ (units (rank - 1) + units rank) * b :=
    Nat.mul_le_mul_right b (Nat.add_le_add hmid hmid')
  have hhigh := h'.high
  have hlow := h.low
  -- both midpoints are the fraction, so the ranks are neighbours, and one of them is odd
  have heq : units rank' + units (rank' + 1) = units (rank - 1) + units rank :=
    Nat.eq_of_mul_eq_mul_right hb (by omega)
  have hnext : rank' = rank - 1 := strictMono_units.injective (by omega)
  rcases Nat.mod_two_eq_zero_or_one rank' with heven | hodd
  · exact (h.odd (by omega)).1 (by omega)
  · exact (h'.odd hodd).2 (by omega)

/-- A fraction has at most one nearest rank. -/
theorem IsNearest.unique (hb : 0 < b) (h : IsNearest rank a b) (h' : IsNearest rank' a b) :
    rank = rank' :=
  Nat.le_antisymm (h.le_of_le hb h' (Nat.le_refl a)) (h'.le_of_le hb h (Nat.le_refl a))

/-- The rank of a value is nearest to it. -/
theorem isNearest_units (hb : 0 < b) (rank : Nat) : IsNearest rank (units rank * b) b := by
  have hprev : units (rank - 1) ≤ units rank := strictMono_units.monotone (Nat.sub_le _ _)
  have hnext : units rank < units (rank + 1) := strictMono_units (Nat.lt_succ_self rank)
  have htwice : 2 * (units rank * b) = (units rank + units rank) * b := by ring
  rw [← Nat.mul_lt_mul_right hb] at hnext
  refine ⟨?_, ?_, fun hodd => ?_⟩
  · rw [htwice]
    exact Nat.mul_le_mul_right b (Nat.add_le_add_right hprev _)
  · rw [htwice, Nat.add_mul, Nat.add_mul]
    omega
  · have hpred : units (rank - 1) < units rank := strictMono_units (by omega)
    rw [← Nat.mul_lt_mul_right hb] at hpred
    rw [htwice, Nat.add_mul, Nat.add_mul, Nat.add_mul]
    omega

end Unique

/-! ### Rounding finds it -/

section Scale

variable {a b s : Nat}

/-- At its scale, a fraction has a coefficient of 53 bits, or of fewer at scale zero. -/
theorem scale_bounds (hb : 0 < b) (hs : s = (a / b).log2 - 52) :
    a < 2 ^ 53 * (b * 2 ^ s) ∧ (s = 0 ∨ 2 ^ 52 * (b * 2 ^ s) ≤ a) := by
  have hswap (k : Nat) : 2 ^ k * (b * 2 ^ s) = 2 ^ (k + s) * b := by ring
  rw [hswap, hswap]
  constructor
  · rw [← Nat.div_lt_iff_lt_mul hb]
    refine Nat.lt_of_lt_of_le Nat.lt_log2_self ?_
    exact Nat.pow_le_pow_right Nat.two_pos (by omega)
  · by_cases hzero : s = 0
    · exact .inl hzero
    · right
      have hlog : 52 + s = (a / b).log2 := by omega
      have hne : a / b ≠ 0 := by
        intro h
        rw [h] at hlog
        simp at hlog
      rw [← Nat.le_div_iff_mul_le hb, hlog]
      exact Nat.log2_self_le hne

/-- With the shift that `nearest` takes, the coefficient is at most `2^53`, and at least `2^52`
where anything is shifted. -/
theorem coefficient_bounds (hb : 0 < b) (hs : s = (a / b).log2 - 52) :
    divNearest a (b * 2 ^ s) ≤ 2 ^ 53 ∧ (s = 0 ∨ 2 ^ 52 ≤ divNearest a (b * 2 ^ s)) := by
  obtain ⟨hlt, hle⟩ := scale_bounds hb hs
  have hpos : 0 < b * 2 ^ s := Nat.mul_pos hb (Nat.two_pow_pos s)
  constructor
  · rw [← Nat.div_lt_iff_lt_mul hpos] at hlt
    exact Nat.le_trans (divNearest_le _ _) hlt
  · refine hle.imp_right fun h => ?_
    rw [← Nat.le_div_iff_mul_le hpos] at h
    exact Nat.le_trans h (div_le_divNearest _ _)

/-- **Rounding the coefficient rounds to the nearest rank.** -/
theorem isNearest_scale (hb : 0 < b) (hs : s = (a / b).log2 - 52) :
    IsNearest (s * 2 ^ 52 + divNearest a (b * 2 ^ s)) a b := by
  obtain ⟨hlt, hle⟩ := scale_bounds hb hs
  obtain ⟨htop, hbottom⟩ := coefficient_bounds hb hs
  obtain ⟨hhigh, hlow, hodd⟩ := divNearest_spec (a := a) (Nat.mul_pos hb (Nat.two_pow_pos s))
  generalize divNearest a (b * 2 ^ s) = q at *
  generalize hrank : s * 2 ^ 52 + q = rank
  have hvalue : units rank * b = q * (b * 2 ^ s) := by
    rw [← hrank, units_of_scale htop hbottom]
    ring
  have hnext : 2 * a < (units rank + units (rank + 1)) * b ∨
      (units rank + units (rank + 1)) * b = (2 * q + 1) * (b * 2 ^ s) := by
    by_cases h : q = 2 ^ 53
    · -- the neighbour is in the next binade, but the fraction is not
      have hup : units rank * b < units (rank + 1) * b :=
        Nat.mul_lt_mul_of_pos_right (strictMono_units (Nat.lt_succ_self rank)) hb
      rw [← h, ← hvalue] at hlt
      rw [Nat.add_mul]
      omega
    · right
      rw [← hrank, units_add_units_succ (by omega) hbottom]
      ring
  have hprev : rank = 0 ∨ (units (rank - 1) + units rank) * b < 2 * a ∨
      (units (rank - 1) + units rank) * b + b * 2 ^ s = 2 * q * (b * 2 ^ s) := by
    by_cases hzero : rank = 0
    · exact .inl hzero
    by_cases h : s ≠ 0 ∧ q = 2 ^ 52
    · -- the neighbour is in the binade below, but the fraction is not
      have hdown : units (rank - 1) * b < units rank * b :=
        Nat.mul_lt_mul_of_pos_right (strictMono_units (by omega)) hb
      have hge := hle.resolve_left h.1
      rw [← h.2, ← hvalue] at hge
      rw [Nat.add_mul]
      omega
    · obtain ⟨p, rfl⟩ : ∃ p, q = p + 1 := ⟨q - 1, by omega⟩
      have hsum := units_add_units_succ (s := s) (q := p) (by omega) (by omega)
      rw [Nat.add_assoc, hrank, show s * 2 ^ 52 + p = rank - 1 by omega] at hsum
      rw [hsum]
      exact .inr (.inr (by ring))
  have hzero : rank = 0 → (units (rank - 1) + units rank) * b = 0 := by
    rintro rfl
    simp [units_eq]
  exact ⟨by omega, by omega, by omega⟩

end Scale

/-- **`nearest` finds the nearest rank** of a fraction, up to infinity. -/
theorem nearest_eq_iff {num den rank : Nat} (hden : 0 < den) (hrank : rank < topRank) :
    nearest num den = rank ↔ IsNearest rank (num * one) den := by
  have hscale := isNearest_scale (a := num * one) hden rfl
  simp only [nearest, twoTo_eq]
  constructor
  · intro h
    rw [← h, Nat.min_eq_right (by omega)]
    exact hscale
  · intro h
    rw [hscale.unique hden h, Nat.min_eq_right (Nat.le_of_lt hrank)]

/-- A fraction that is a value has its rank. -/
theorem nearest_eq_of_eq {num den rank : Nat} (hden : 0 < den) (hrank : rank < topRank)
    (h : num * one = units rank * den) : nearest num den = rank := by
  rw [nearest_eq_iff hden hrank, h]
  exact isNearest_units hden rank

/-- A common factor does not change the rank. -/
theorem nearest_mul_right (num den : Nat) {c : Nat} (hc : 0 < c) :
    nearest (num * c) (den * c) = nearest num den := by
  have hswap (n : Nat) : num * c * n = num * n * c := Nat.mul_right_comm _ _ _
  have hswap' (n : Nat) : den * c * n = den * n * c := Nat.mul_right_comm _ _ _
  simp only [nearest, twoTo_eq, hswap, hswap', Nat.mul_div_mul_right _ _ hc, divNearest_mul_right _ _ hc]

/-- Equal fractions have one rank. -/
theorem nearest_congr {num den num' den' : Nat} (hden : 0 < den) (hden' : 0 < den')
    (h : num * den' = num' * den) : nearest num den = nearest num' den' := by
  rw [← nearest_mul_right num den hden', h, Nat.mul_comm den, nearest_mul_right _ _ hden]

/-- A larger fraction has no lower rank. -/
theorem nearest_le_nearest {num den num' den' : Nat} (hden : 0 < den) (hden' : 0 < den')
    (h : num * den' ≤ num' * den) : nearest num den ≤ nearest num' den' := by
  have hpos : 0 < den * den' := Nat.mul_pos hden hden'
  have hscale := isNearest_scale (a := num * den' * one) hpos rfl
  have hscale' := isNearest_scale (a := num' * den * one) hpos rfl
  have hle := hscale.le_of_le hpos hscale' (Nat.mul_le_mul_right one h)
  rw [← nearest_mul_right num den hden', ← nearest_mul_right num' den' hden, Nat.mul_comm den' den]
  simp only [nearest, twoTo_eq]
  exact min_le_min_left _ hle

/-! ### Overflow -/

/-- The middle between the largest finite value and the one that would follow it, doubled. -/
theorem units_add_units_topRank :
    units (topRank - 1) + units topRank = 2 * ((2 ^ 1024 - 2 ^ 970) * one) := by
  decide +kernel

/-- The nearest rank is below a rank that is even exactly when the fraction is below the middle
between that rank and the one before it. -/
theorem IsNearest.lt_iff {rank top a b : Nat} (hb : 0 < b) (h : IsNearest rank a b)
    (htop : top % 2 = 0) (hpos : 0 < top) :
    rank < top ↔ 2 * a < (units (top - 1) + units top) * b := by
  constructor
  · intro hlt
    have hle : units rank ≤ units (top - 1) := strictMono_units.monotone (by omega)
    have hle' : units (rank + 1) ≤ units top := strictMono_units.monotone hlt
    have hmid : (units rank + units (rank + 1)) * b ≤ (units (top - 1) + units top) * b :=
      Nat.mul_le_mul_right b (Nat.add_le_add hle hle')
    refine Nat.lt_of_le_of_ne (Nat.le_trans h.high hmid) fun heq => ?_
    -- on the middle the rank would be the neighbour, which is odd and leaves the middle
    have hhigh := h.high
    have hsum : units rank + units (rank + 1) = units (top - 1) + units top :=
      Nat.eq_of_mul_eq_mul_right hb (by omega)
    have hrank : rank = top - 1 := strictMono_units.injective (by omega)
    exact (h.odd (by omega)).2 (by rw [hsum, heq])
  · intro hlt
    by_contra hge
    have hle : units (top - 1) ≤ units (rank - 1) := strictMono_units.monotone (by omega)
    have hle' : units top ≤ units rank := strictMono_units.monotone (by omega)
    have hmid : (units (top - 1) + units top) * b ≤ (units (rank - 1) + units rank) * b :=
      Nat.mul_le_mul_right b (Nat.add_le_add hle hle')
    have hlow := h.low
    omega

/-- **A fraction is finite below `2^1024 - 2^970`**, the middle between the largest finite value and
the power of two that follows it, and rounds to infinity from there on. -/
theorem isFinite_ofFraction_iff (negative : Bool) {num den : Nat} (hden : 0 < den) :
    (ofFraction negative num den).isFinite = true ↔ num < (2 ^ 1024 - 2 ^ 970) * den := by
  have hscale := isNearest_scale (a := num * one) hden rfl
  have htop : topRank % 2 = 0 := by decide
  have hpos : 0 < topRank := by decide
  have hlt := hscale.lt_iff hden htop hpos
  have hcross : 2 * ((2 ^ 1024 - 2 ^ 970) * one) * den =
      2 * ((2 ^ 1024 - 2 ^ 970) * den * one) := by ring
  rw [units_add_units_topRank, hcross, Nat.mul_lt_mul_left Nat.two_pos,
    Nat.mul_lt_mul_right one_pos] at hlt
  rw [← hlt, isFinite, decide_eq_true_iff]
  show min topRank _ < topRank ↔ _
  rw [twoTo_eq, twoTo_eq]
  omega

/-- The number `x` has the magnitude of `num / den`, rounded to the nearest. -/
structure IsRounded (x : Binary64) (num den : Nat) : Prop where
  /-- Below the middle between the largest finite value and the one that would follow it, the rank
  is finite and the nearest. -/
  finite : num < (2 ^ 1024 - 2 ^ 970) * den → x.isFinite = true ∧ IsNearest x.rank (num * one) den
  /-- From there on, the number is infinite. -/
  infinite : (2 ^ 1024 - 2 ^ 970) * den ≤ num → x.isFinite = false

theorem negative_ofFraction (negative : Bool) (num den : Nat) :
    (ofFraction negative num den).negative = negative := rfl

theorem rank_ofFraction (negative : Bool) (num den : Nat) :
    (ofFraction negative num den).rank = nearest num den := rfl

/-- A number is finite exactly if it stands below infinity. -/
theorem isFinite_iff {x : Binary64} : x.isFinite = true ↔ x.rank < topRank := decide_eq_true_iff

/-- A number is its sign and its rank. -/
theorem eq_of_rank_eq {x y : Binary64} (hsign : x.negative = y.negative) (hrank : x.rank = y.rank) :
    x = y := by
  rcases x with ⟨sign, rank, hle⟩
  rcases y with ⟨sign', rank', hle'⟩
  obtain rfl : sign = sign' := hsign
  obtain rfl : rank = rank' := hrank
  rfl

/-- A number is a rounded fraction exactly if its rank is the nearest one. -/
theorem eq_ofFraction_iff {x : Binary64} {num den : Nat} :
    x = ofFraction x.negative num den ↔ x.rank = nearest num den := by
  constructor
  · intro h
    rw [← rank_ofFraction x.negative, ← h]
  · intro h
    exact eq_of_rank_eq (negative_ofFraction _ num den).symm (h.trans (rank_ofFraction _ _ _).symm)

/-- **`ofFraction` rounds to the nearest**, and nothing else with its sign does. -/
theorem isRounded_iff {x : Binary64} {num den : Nat} (hden : 0 < den) :
    x.IsRounded num den ↔ x = ofFraction x.negative num den := by
  have hfinite : nearest num den < topRank ↔ num < (2 ^ 1024 - 2 ^ 970) * den := by
    rw [← isFinite_ofFraction_iff x.negative hden, isFinite_iff, rank_ofFraction]
  rw [eq_ofFraction_iff]
  constructor
  · rintro ⟨hnearest, hinfinite⟩
    by_cases hlt : num < (2 ^ 1024 - 2 ^ 970) * den
    · obtain ⟨hx, hrank⟩ := hnearest hlt
      exact ((nearest_eq_iff hden (isFinite_iff.1 hx)).2 hrank).symm
    · have hx := hinfinite (Nat.le_of_not_lt hlt)
      rw [← Bool.not_eq_true, isFinite_iff] at hx
      have hle := x.rank_le
      have hle' : nearest num den ≤ topRank := Nat.min_le_left _ _
      rw [← hfinite] at hlt
      omega
  · intro hx
    rw [← hx] at hfinite
    refine ⟨fun hlt => ?_, fun hge => ?_⟩
    · have hrank := hfinite.2 hlt
      exact ⟨isFinite_iff.2 hrank, (nearest_eq_iff hden hrank).1 hx.symm⟩
    · rw [← Bool.not_eq_true, isFinite_iff, hfinite]
      exact Nat.not_lt.2 hge

/-- The number made from a fraction is the fraction rounded. -/
theorem isRounded_ofFraction (negative : Bool) {num den : Nat} (hden : 0 < den) :
    (ofFraction negative num den).IsRounded num den :=
  (isRounded_iff hden).2 (by rw [negative_ofFraction])

/-! ### Whole numbers -/

/-- A whole number of 53 bits is the value of some finite rank. -/
theorem exists_units_eq_whole {n : Nat} (hn : n < 2 ^ 53) :
    ∃ rank < topRank, units rank = n * one := by
  rcases Nat.eq_zero_or_pos n with rfl | hpos
  · exact ⟨0, by decide, by simp [units_eq]⟩
  · have hne : n ≠ 0 := Nat.ne_of_gt hpos
    have hlog : n.log2 < 53 := (Nat.log2_lt hne).2 hn
    -- shifted to its left end, the coefficient has 53 bits
    have hlow : 2 ^ 52 ≤ n * 2 ^ (52 - n.log2) := by
      calc 2 ^ 52 = 2 ^ n.log2 * 2 ^ (52 - n.log2) := by rw [← Nat.pow_add]; congr 1; omega
        _ ≤ n * 2 ^ (52 - n.log2) := Nat.mul_le_mul_right _ (Nat.log2_self_le hne)
    have hhigh : n * 2 ^ (52 - n.log2) < 2 ^ 53 := by
      calc n * 2 ^ (52 - n.log2) < 2 ^ (n.log2 + 1) * 2 ^ (52 - n.log2) :=
            Nat.mul_lt_mul_of_pos_right Nat.lt_log2_self (Nat.two_pow_pos _)
        _ = 2 ^ 53 := by rw [← Nat.pow_add]; congr 1; omega
    refine ⟨(1022 + n.log2) * 2 ^ 52 + n * 2 ^ (52 - n.log2), ?_, ?_⟩
    · rw [topRank, twoTo_eq]
      omega
    · rw [units_of_scale (Nat.le_of_lt hhigh) (.inr hlow), one, twoTo_eq, Nat.mul_assoc,
        ← Nat.pow_add]
      congr 2
      omega

/-- A whole number of 53 bits is kept as it is. -/
theorem magnitude_ofFraction_whole (negative : Bool) {n : Nat} (hn : n < 2 ^ 53) :
    (ofFraction negative n 1).magnitude = n * one ∧ (ofFraction negative n 1).isFinite = true := by
  obtain ⟨rank, hrank, hunits⟩ := exists_units_eq_whole hn
  have hnearest : nearest n 1 = rank :=
    nearest_eq_of_eq Nat.one_pos hrank (by rw [hunits, Nat.mul_one])
  constructor
  · show units (nearest n 1) = n * one
    rw [hnearest, hunits]
  · show decide (nearest n 1 < topRank) = true
    rw [hnearest]
    exact decide_eq_true hrank

/-- A whole number of up to 53 bits is kept exactly. -/
theorem truncate_ofFraction_whole (negative : Bool) {n : Nat} (hn : n < 2 ^ 53) :
    (ofFraction negative n 1).truncate = if negative then -(n : Int) else n := by
  have hsign : (ofFraction negative n 1).negative = negative := rfl
  rw [truncate, (magnitude_ofFraction_whole negative hn).1, Nat.mul_div_cancel _ one_pos, hsign]

end Binary64
end ImageCheck
