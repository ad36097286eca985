/-
# Numbers read back from their texts

The shortest text of a finite number without a sign is read as that number
(`parse?_text`): whichever grid `shortest` settles on, it takes a decimal only after
`readsBack` has let it pass, and `readsBack` is `IsNearest` for that decimal. Where no
grid of 17 digits gave one, the finest grid does, its step being less than half of
the least positive number.

The text of a whole number of 32 bits is read as a number whose whole part is the
number again (`exists_parse?_toString`), both limits included.
-/

import ImageCheck.Proofs.Number.Digits
import ImageCheck.Proofs.Number.Rounding

namespace ImageCheck
namespace Decimal

open Binary64

/-! ### The shortest decimal -/

/-- A decimal of the finest grid reads back as a rank exactly when the rank is nearest to it. -/
theorem readsBack_iff {rank n : Nat} :
    readsBack rank n = true ↔ IsNearest rank (n * one) (tenTo finestPlaces) := by
  rw [readsBack, Nat.mul_assoc 2 n one]
  rcases Nat.mod_two_eq_zero_or_one rank with heven | hodd
  · rw [if_pos heven, Bool.and_eq_true, decide_eq_true_iff, decide_eq_true_iff]
    constructor
    · rintro ⟨hlow, hhigh⟩
      exact ⟨hlow, hhigh, fun hodd => by omega⟩
    · intro h
      exact ⟨h.low, h.high⟩
  · rw [if_neg (by omega), Bool.and_eq_true, decide_eq_true_iff, decide_eq_true_iff]
    constructor
    · rintro ⟨hlow, hhigh⟩
      exact ⟨Nat.le_of_lt hlow, Nat.le_of_lt hhigh, fun _ => ⟨Nat.ne_of_lt hlow, Nat.ne_of_lt hhigh⟩⟩
    · intro h
      exact ⟨Nat.lt_of_le_of_ne h.low (h.odd hodd).1, Nat.lt_of_le_of_ne h.high (h.odd hodd).2⟩

/-- A grid gives only decimals that read back. -/
theorem readsBack_of_candidate? {rank drop n : Nat} (h : candidate? rank drop = some n) :
    readsBack rank (n * tenTo drop) = true := by
  simp only [candidate?] at h
  split at h
  · rename_i hbelow _
    obtain rfl := Option.some.inj h
    exact hbelow
  · rename_i habove
    obtain rfl := Option.some.inj h
    exact habove
  · rename_i hbelow habove
    split at h
    · obtain rfl := Option.some.inj h
      exact habove
    · obtain rfl := Option.some.inj h
      exact hbelow
  · cases h

/-- The finest grid has a decimal for every positive rank: the number itself, rounded down. -/
theorem readsBack_finest {rank : Nat} (hrank : 0 < rank) :
    readsBack rank (units rank * tenTo finestPlaces / one) = true := by
  have hstep : 2 * one ≤ tenTo finestPlaces := by decide +kernel
  have hprev : units (rank - 1) + 1 ≤ units rank := strictMono_units (by omega)
  have hnext : units rank + 1 ≤ units (rank + 1) := strictMono_units (Nat.lt_succ_self rank)
  rw [readsBack_iff]
  generalize tenTo finestPlaces = grid at *
  have hdown := Nat.mul_le_mul_right grid hprev
  have hup := Nat.mul_le_mul_right grid hnext
  have hfloor := Nat.div_add_mod (units rank * grid) one
  have hrest := Nat.mod_lt (units rank * grid) Binary64.one_pos
  rw [Nat.mul_comm one] at hfloor
  rw [Nat.add_mul] at hdown hup
  refine ⟨?_, ?_, fun _ => ?_⟩ <;> rw [Nat.add_mul]
  · omega
  · omega
  · rw [Nat.add_mul]
    omega

/-- The shortest decimal of a positive rank reads back. -/
theorem readsBack_shortest {rank : Nat} (hrank : 0 < rank) :
    readsBack rank ((shortest rank).1 * tenTo (shortest rank).2) = true := by
  rw [shortest]
  cases hfound : ((List.range mostDigits).map fun k =>
      (digitsOf (units rank * tenTo finestPlaces / one)).length - 1 - k).findSome? fun drop =>
        (candidate? rank drop).map (·, drop) with
  | none =>
    rw [Option.getD_none, tenTo_eq 0, Nat.pow_zero, Nat.mul_one]
    exact readsBack_finest hrank
  | some found =>
    obtain ⟨drop, -, hdrop⟩ := List.exists_of_findSome?_eq_some hfound
    obtain ⟨n, hn, rfl⟩ := Option.map_eq_some_iff.1 hdrop
    exact readsBack_of_candidate? hn

/-! ### Numbers of any size -/

/-- The text of a finite magnitude stands for a fraction whose nearest rank is its own. -/
theorem exists_writes_magnitudeText {rank : Nat} (hrank : rank < topRank) :
    ∃ n k, Writes (magnitudeText rank) n k ∧ nearest n (10 ^ k) = rank := by
  have hpow (k : Nat) : 0 < 10 ^ k := Nat.pow_pos (by decide)
  by_cases hzero : rank = 0
  · subst hzero
    have hdigits : digitsOf 0 = ['0'] := by decide
    have hwrites := writes_digitsOf 0
    rw [magnitudeText, if_pos rfl, ← hdigits]
    refine ⟨0, 0, hwrites, nearest_eq_of_eq Nat.one_pos hrank ?_⟩
    rw [Nat.zero_mul, units_eq, if_pos (Nat.two_pow_pos 52), Nat.zero_mul]
  · have hback := readsBack_iff.1 (readsBack_shortest (Nat.pos_of_ne_zero hzero))
    rw [tenTo_eq finestPlaces, ← nearest_eq_iff (hpow finestPlaces) hrank, tenTo_eq] at hback
    rw [magnitudeText, if_neg hzero, if_pos hrank]
    generalize shortest rank = decimal at *
    obtain ⟨n, drop⟩ := decimal
    by_cases hdrop : finestPlaces ≤ drop
    · simp only [if_pos hdrop]
      refine ⟨_, 0, writes_digitsOf _, ?_⟩
      rw [← hback]
      refine nearest_congr (hpow 0) (hpow finestPlaces) ?_
      rw [tenTo_eq, Nat.mul_assoc, ← Nat.pow_add, Nat.sub_add_cancel hdrop, Nat.pow_zero,
        Nat.mul_one]
    · simp only [if_neg hdrop]
      obtain ⟨m, k, hwrites, hcross⟩ := exists_writes_positional n (finestPlaces - drop)
      refine ⟨m, k, hwrites, ?_⟩
      rw [← hback]
      refine nearest_congr (hpow k) (hpow finestPlaces) ?_
      calc m * 10 ^ finestPlaces
          = m * (10 ^ (finestPlaces - drop) * 10 ^ drop) := by
            rw [← Nat.pow_add, Nat.sub_add_cancel (Nat.le_of_not_le hdrop)]
        _ = n * 10 ^ drop * 10 ^ k := by
            rw [← Nat.mul_assoc, hcross, Nat.mul_right_comm]

/-- **A finite number without a sign reads back from its text**, which is a decimal text. -/
theorem exists_writes_text {x : Binary64} (hfinite : x.isFinite = true)
    (hsign : x.negative = false) :
    (∃ n k, Writes x.text.toList n k) ∧ Binary64.parse? x.text.toList = some x := by
  obtain ⟨n, k, hwrites, hnearest⟩ := exists_writes_magnitudeText (of_decide_eq_true hfinite)
  have htext : x.text.toList = magnitudeText x.rank := by
    simp [Binary64.text, hsign]
  rw [htext]
  refine ⟨⟨n, k, hwrites⟩, ?_⟩
  rw [hwrites.parse?_eq]
  obtain ⟨negative, rank, hle⟩ := x
  obtain rfl : negative = false := hsign
  simp only [ofFraction, hnearest]

/-! ### Whole numbers of 32 bits -/

/-- A natural number is printed as its digits. -/
theorem toList_toString_nat (n : Nat) : (toString n).toList = digitsOf n := by
  rw [Nat.toString_eq_ofList_toDigits, String.toList_ofList]
  rfl

/-- The text of a whole number is its digits, behind a minus sign if it is negative. -/
theorem toList_toString_int (i : Int) :
    (toString i).toList = (if i < 0 then ['-'] else []) ++ digitsOf i.natAbs := by
  cases i with
  | ofNat n =>
    rw [if_neg (by simp)]
    exact toList_toString_nat n
  | negSucc n =>
    have htext : toString (Int.negSucc n) = "-" ++ toString (n + 1) := rfl
    rw [htext, String.toList_append, toList_toString_nat, if_pos (Int.negSucc_lt_zero n)]
    rfl

/-- A whole part within 32 bits is kept as it is. -/
theorem truncate32_eq {x : Binary64} {i : Int32} (h : x.truncate = i.toInt) :
    x.truncate32 = i := by
  have hlow := i.le_toInt
  have hhigh := i.toInt_le
  have hmax : Int32.maxValue.toInt = 2147483647 := rfl
  rw [Binary64.truncate32, h, Int.min_eq_right (by omega), Int.max_eq_right (by omega),
    Int32.ofInt_toInt]

/-- **A whole number of 32 bits reads back from its text**, although it is read as a floating-point
number and then cut to its whole part. -/
theorem exists_parse?_toString (i : Int32) :
    Decimal.isLiteral (toString i.toInt).toList = true ∧
      ∃ x, Binary64.parse? (toString i.toInt).toList = some x ∧ x.isFinite = true ∧
        x.truncate32 = i := by
  have hlow := i.le_toInt
  have hhigh := i.toInt_le
  have hmax : Int32.maxValue.toInt = 2147483647 := rfl
  have hsmall : i.toInt.natAbs < 2 ^ 53 := by omega
  have hwrites := writes_digitsOf i.toInt.natAbs
  rw [toList_toString_int]
  by_cases hneg : i.toInt < 0
  · rw [if_pos hneg]
    refine ⟨hwrites.isLiteral_minus, _, hwrites.parse?_minus, ?_, truncate32_eq ?_⟩
    · exact (magnitude_ofFraction_whole true hsmall).2
    · rw [Nat.pow_zero, truncate_ofFraction_whole true hsmall, if_pos rfl]
      omega
  · rw [if_neg hneg]
    refine ⟨hwrites.isLiteral, _, hwrites.parse?_eq, ?_, truncate32_eq ?_⟩
    · exact (magnitude_ofFraction_whole false hsmall).2
    · rw [Nat.pow_zero, truncate_ofFraction_whole false hsmall, if_neg Bool.false_ne_true]
      omega

end Decimal
end ImageCheck
