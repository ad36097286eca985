/-
# Whole numbers at the limit of 32 bits

`SPEC_FULL` §4.4; `parse_integer_parameter`.

A whole number of a parameter is read digit by digit in numbers of 32 bits with a sign:
what was read so far times ten, plus the next digit, each of the two steps checked. Read
to its end it has to be no negative number.

| step | what is checked |
| --- | --- |
| `signed?` | the exact result is a number of 32 bits with a sign |
| `pushDigit?` | both the product and the sum |
| `unsigned?` | no number below zero |

`foldlM_pushDigit?` is the run over a whole text of digits, however long: its checks fail
exactly if the exact value is too large, wherever in the text that shows, and zeros in
front never make them fail. So `readDigits?` reads what `Value.integer` takes the value of
in one go (`integer_eq_readDigits?`), and `Spells` says what that is, place by place.
-/

import ImageCheck.Proofs.Value.Printed
import Mathlib.Data.Nat.Digits.Defs

namespace ImageCheck
namespace Value

/-! ### Checked steps -/

/-- The digit that a character stands for. -/
def digitValue (ch : Char) : Nat := ch.toNat - '0'.toNat

/-- A number of 32 bits with a sign, if the exact number is one. -/
def signed? (i : Int) : Option Int32 :=
  if -2147483648 ≤ i ∧ i ≤ 2147483647 then some (.ofInt i) else none

/-- One more digit behind a number: times ten, then plus the digit. -/
def pushDigit? (n : Int32) (ch : Char) : Option Int32 := do
  let tens ← signed? (n.toInt * 10)
  signed? (tens.toInt + digitValue ch)

/-- A number without a sign, if there is no minus. -/
def unsigned? (n : Int32) : Option UInt32 := if n < 0 then none else some n.toUInt32

/-- The number of a text of digits, read digit by digit. -/
def readDigits? (cs : List Char) : Option UInt32 :=
  if cs = [] ∨ cs.all Char.isDigit = false then none
  else (cs.foldlM pushDigit? 0).bind unsigned?

section Steps

variable {n : Nat}

/-- A number up to the limit fits 32 bits with a sign. -/
theorem signed?_of_le (h : n ≤ 2147483647) : signed? n = some (.ofNat n) := by
  rw [signed?, if_pos (by omega), Int32.ofInt_eq_ofNat]

/-- One beyond it does not. -/
theorem signed?_of_lt (h : 2147483647 < n) : signed? n = none := by
  rw [signed?, if_neg (by omega)]

/-- **A digit is added exactly or not at all.** A product that is too large makes the sum too large,
so the two checks are one. -/
theorem pushDigit?_ofNat (hn : n ≤ 2147483647) (ch : Char) :
    pushDigit? (.ofNat n) ch = signed? (10 * n + digitValue ch : Nat) := by
  have hvalue : (Int32.ofNat n).toInt = n := Int32.toInt_ofNat_of_lt (by omega)
  have hproduct : (n : Int) * 10 = (10 * n : Nat) := by omega
  rw [pushDigit?, hvalue, hproduct]
  by_cases htens : 10 * n ≤ 2147483647
  · have hsum : (Int32.ofNat (10 * n)).toInt = (10 * n : Nat) :=
      Int32.toInt_ofNat_of_lt (by omega)
    rw [signed?_of_le htens]
    show signed? ((Int32.ofNat (10 * n)).toInt + digitValue ch) = _
    rw [hsum, Int.natCast_add]
  · rw [signed?_of_lt (by omega), signed?_of_lt (by omega)]
    rfl

/-- Digits behind a number make it no smaller. -/
theorem le_ofDigitChars (cs : List Char) (n : Nat) : n ≤ Nat.ofDigitChars 10 cs n := by
  rw [Nat.ofDigitChars_eq_ofDigitChars_zero]
  have hscale : 1 * n ≤ 10 ^ cs.length * n :=
    Nat.mul_le_mul_right n (Nat.pow_pos (by decide))
  omega

/-- **A text of digits is read exactly or not at all**, behind any number that was read before. -/
theorem foldlM_pushDigit? (hn : n ≤ 2147483647) (cs : List Char) :
    cs.foldlM pushDigit? (.ofNat n) = signed? (Nat.ofDigitChars 10 cs n) := by
  induction cs generalizing n with
  | nil => exact (signed?_of_le hn).symm
  | cons ch cs ih =>
    rw [List.foldlM_cons, pushDigit?_ofNat hn, Nat.ofDigitChars_cons]
    show (signed? ((10 * n + digitValue ch : Nat) : Int) >>= _) =
      signed? (Nat.ofDigitChars 10 cs (10 * n + digitValue ch))
    by_cases hnext : 10 * n + digitValue ch ≤ 2147483647
    · rw [signed?_of_le hnext]
      exact ih hnext
    · -- what is too large already stays so, whatever digits follow
      have hgrows := le_ofDigitChars cs (10 * n + digitValue ch)
      rw [signed?_of_lt (by omega), signed?_of_lt (by omega)]
      rfl

/-- A number up to the limit loses its sign unchanged. -/
theorem unsigned?_ofNat (h : n ≤ 2147483647) : unsigned? (.ofNat n) = some (.ofNat n) := by
  have hvalue : (Int32.ofNat n).toInt = n := Int32.toInt_ofNat_of_lt (by omega)
  have hsign : ¬ Int32.ofNat n < 0 := by
    rw [Int32.lt_iff_toInt_lt, hvalue]
    exact Int.not_lt.2 (Int.natCast_nonneg n)
  rw [unsigned?, if_neg hsign]
  rfl

end Steps

/-- Reading digit by digit is taking the value in one go. -/
theorem readDigits?_eq (cs : List Char) :
    readDigits? cs = (Decimal.parseBounded? maxInteger cs).map .ofNat := by
  unfold readDigits? Decimal.parseBounded?
  by_cases hdigits : cs = [] ∨ cs.all Char.isDigit = false
  · have hnone : ¬ (cs ≠ [] ∧ Decimal.allDigits cs = true ∧
        Decimal.natOfDigits cs ≤ maxInteger) := by
      rintro ⟨hne, hall, -⟩
      rcases hdigits with hnil | hother
      · exact hne hnil
      · rw [Decimal.allDigits, hother] at hall
        cases hall
    rw [if_pos hdigits, if_neg hnone]
    rfl
  · have hread : cs.foldlM pushDigit? 0 = signed? (Decimal.natOfDigits cs) :=
      foldlM_pushDigit? (n := 0) (by decide) cs
    rw [not_or, Bool.not_eq_false] at hdigits
    rw [if_neg (by simpa using hdigits), hread]
    by_cases hle : Decimal.natOfDigits cs ≤ 2147483647
    · rw [signed?_of_le hle, if_pos ⟨hdigits.1, hdigits.2, hle⟩]
      exact unsigned?_ofNat hle
    · rw [signed?_of_lt (by omega), if_neg fun h => hle h.2.2]
      rfl

/-- A parameter takes the number that is read digit by digit. -/
theorem integer_eq_readDigits? (field value : String) :
    integer field value =
      match readDigits? value.toList with
      | some n => .ok n
      | none => .error (.invalidInteger field value) := by
  rw [integer, readDigits?_eq]
  cases Decimal.parseBounded? maxInteger value.toList <;> rfl

/-! ### What a text spells -/

/-- A text of ASCII digits, at least one, that stands for `n`: each digit counts ten times the one
behind it. -/
structure Spells (value : String) (n : Nat) : Prop where
  /-- There is a digit. -/
  nonempty : value.toList ≠ []
  /-- There is nothing else. -/
  digits : ∀ ch ∈ value.toList, '0' ≤ ch ∧ ch ≤ '9'
  /-- The digits, last first, are those of `n` in the base ten. -/
  places : Nat.ofDigits 10 (value.toList.map digitValue).reverse = n

/-- The digits are the characters from `0` to `9`. -/
theorem isDigit_iff {ch : Char} : ch.isDigit = true ↔ '0' ≤ ch ∧ ch ≤ '9' := by
  rw [Char.isDigit_iff_toNat]
  rfl

/-- The number read from the front is the sum of the digits at their places. -/
theorem ofDigits_reverse_map (cs : List Char) :
    Nat.ofDigits 10 (cs.map digitValue).reverse = Decimal.natOfDigits cs := by
  induction cs with
  | nil => rfl
  | cons ch cs ih =>
    have hfront := Decimal.natOfDigits_append [ch] cs
    have hdigit : Decimal.natOfDigits [ch] = digitValue ch := by
      simp [Decimal.natOfDigits, Nat.ofDigitChars, digitValue]
    rw [List.singleton_append, hdigit] at hfront
    rw [List.map_cons, Nat.ofDigits_reverse_cons, ih, hfront, List.length_map]
    ring

/-- A text spells a number exactly if it is not empty, all digits, and reads as the number. -/
theorem spells_iff {value : String} {n : Nat} :
    Spells value n ↔ value.toList ≠ [] ∧ Decimal.allDigits value.toList = true ∧
      Decimal.natOfDigits value.toList = n := by
  rw [Decimal.allDigits_iff, ← ofDigits_reverse_map]
  constructor
  · rintro ⟨hne, hdigits, hplaces⟩
    exact ⟨hne, fun ch hch => isDigit_iff.2 (hdigits ch hch), hplaces⟩
  · rintro ⟨hne, hdigits, hplaces⟩
    exact ⟨hne, fun ch hch => isDigit_iff.1 (hdigits ch hch), hplaces⟩

section Integer

variable {field value : String} {n : Nat}

/-- A number up to the limit is read as it is spelled. -/
theorem integer_of_spells (h : Spells value n) (hle : n ≤ 2147483647) :
    integer field value = .ok (.ofNat n) := by
  obtain ⟨hne, hdigits, rfl⟩ := spells_iff.1 h
  rw [integer, Decimal.parseBounded?, if_pos ⟨hne, hdigits, hle⟩]

/-- Any other text is refused, with the field and the text. -/
theorem integer_of_not_spells (h : ¬ ∃ n ≤ 2147483647, Spells value n) :
    integer field value = .error (.invalidInteger field value) := by
  have hnone : ¬ (value.toList ≠ [] ∧ Decimal.allDigits value.toList = true ∧
      Decimal.natOfDigits value.toList ≤ maxInteger) := by
    rintro ⟨hne, hdigits, hle⟩
    exact h ⟨_, hle, spells_iff.2 ⟨hne, hdigits, rfl⟩⟩
  rw [integer, Decimal.parseBounded?, if_neg hnone]

/-- Zeros in front of the digits of a number change nothing. -/
theorem spells_zeros_append (zeros n : Nat) :
    Spells (String.ofList (List.replicate zeros '0') ++ toString n) n := by
  have htext : (String.ofList (List.replicate zeros '0') ++ toString n).toList =
      List.replicate zeros '0' ++ Decimal.digitsOf n := by
    rw [String.toList_append, String.toList_ofList, Decimal.toList_toString_nat]
  have hne : Decimal.digitsOf n ≠ [] := Nat.toDigits_ne_nil
  rw [spells_iff, htext]
  refine ⟨by simp [hne], ?_, ?_⟩
  · rw [Decimal.allDigits_append]
    refine ⟨Decimal.allDigits_iff.2 fun ch hch => ?_, Decimal.allDigits_digitsOf n⟩
    rw [List.eq_of_mem_replicate hch]
    rfl
  · rw [Decimal.natOfDigits_append, Decimal.natOfDigits_zeros, Decimal.natOfDigits_digitsOf,
      Nat.zero_mul, Nat.zero_add]

end Integer

/-- **Whole numbers are exact up to the limit.** A parameter takes the number `n` from a text
exactly if the text is ASCII digits that stand for `n`, with any zeros in front, and `n` is at most
2147483647; any other text is refused, with the name of the parameter and the text as they are. The
number is what reading digit by digit in 32 bits with checked steps gives. A number up to the limit
is read back from its digits, behind any number of zeros. -/
theorem integer_exact (field value : String) :
    (∀ n : UInt32, integer field value = .ok n ↔
      Spells value n.toNat ∧ n.toNat ≤ 2147483647) ∧
    (∀ e, integer field value = .error e ↔
      e = .invalidInteger field value ∧ ¬ ∃ n ≤ 2147483647, Spells value n) ∧
    (integer field value =
      match readDigits? value.toList with
      | some n => .ok n
      | none => .error (.invalidInteger field value)) ∧
    ∀ (n : UInt32) (zeros : Nat), n.toNat ≤ 2147483647 →
      integer field (String.ofList (List.replicate zeros '0') ++ toString n.toNat) = .ok n := by
  have hrange {n : Nat} (hle : n ≤ 2147483647) : (UInt32.ofNat n).toNat = n :=
    UInt32.toNat_ofNat_of_lt' (by rw [UInt32.size]; omega)
  refine ⟨fun n => ?_, fun e => ?_, integer_eq_readDigits? field value, fun n zeros hle => ?_⟩
  · constructor
    · intro h
      by_cases hspells : ∃ m ≤ 2147483647, Spells value m
      · obtain ⟨m, hle, hm⟩ := hspells
        rw [integer_of_spells hm hle] at h
        obtain rfl := Except.ok.inj h
        rw [hrange hle]
        exact ⟨hm, hle⟩
      · rw [integer_of_not_spells hspells] at h
        cases h
    · rintro ⟨hspells, hle⟩
      rw [integer_of_spells hspells hle, UInt32.ofNat_toNat]
  · constructor
    · intro h
      by_cases hspells : ∃ m ≤ 2147483647, Spells value m
      · obtain ⟨m, hle, hm⟩ := hspells
        rw [integer_of_spells hm hle] at h
        cases h
      · rw [integer_of_not_spells hspells] at h
        exact ⟨(Except.error.inj h).symm, hspells⟩
    · rintro ⟨rfl, hspells⟩
      exact integer_of_not_spells hspells
  · rw [integer_of_spells (spells_zeros_append zeros n.toNat) hle, UInt32.ofNat_toNat]

/-- The largest number is read behind three zeros, and the next number is refused. -/
theorem integer_exact_limit :
    (2147483647 : UInt32).toNat ≤ 2147483647 ∧
      integer "tolerance" "0002147483647" = .ok 2147483647 ∧
      integer "tolerance" "2147483648" = .error (.invalidInteger "tolerance" "2147483648") := by
  refine ⟨by decide, ?_, ?_⟩
  · have htext : String.ofList (List.replicate 3 '0') ++ toString (2147483647 : UInt32).toNat =
        "0002147483647" := by
      decide +kernel
    obtain ⟨-, -, -, hzeros⟩ := integer_exact "tolerance" ""
    rw [← htext]
    exact hzeros 2147483647 3 (by decide)
  · have hplaces : Nat.ofDigits 10 ("2147483648".toList.map digitValue).reverse = 2147483648 := by
      decide +kernel
    obtain ⟨-, hrefused, -, -⟩ := integer_exact "tolerance" "2147483648"
    refine (hrefused _).2 ⟨rfl, ?_⟩
    rintro ⟨n, hle, hn⟩
    have := hn.places
    omega

end Value
end ImageCheck
