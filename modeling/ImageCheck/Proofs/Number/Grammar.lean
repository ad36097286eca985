/-
# The grammars of numbers as regular expressions

`SPEC_FULL` §3 and §4.5; `is_unsigned_decimal` and `is_decimal_literal`.

Three grammars over ASCII digits are recognized by hand: a sign is taken off, the text is
taken apart at its first point, and what is left has to be digits. Here they are written
down as regular expressions, and each recognizer is shown to accept the words of its own:

| recognizer | regular expression | words |
| --- | --- | --- |
| `isUnsigned` | `unsigned` | `d+ ('.' d+)?` |
| `isLiteral` | `literal` | `[+-]? (d+ ('.' d*)? \| '.' d+)` |
| `Binary64.parse?` | `numeral` | `[+-]? (d+ \| d+ '.' d* \| d* '.' d+) ([eE] [+-]? d+)?` |

The conversion of a text to a number takes the numerals and, written in letters, infinity
and what is no number: `float`. Each grammar is inside the next. So a text that has passed one of
the first two recognizers always has a number, and the one thing that can still be wrong
with a literal is that its number is not finite.
-/

import ImageCheck.Proofs.Number.Digits
import ImageCheck.Value.Token
import Mathlib.Computability.RegularExpressions

namespace ImageCheck
namespace Decimal

/-! ### Regular expressions -/

namespace Pattern

/-- One of some characters. -/
def oneOf (chars : List Char) : RegularExpression Char := (chars.map .char).sum

/-- A word or nothing. -/
def optional (P : RegularExpression Char) : RegularExpression Char := 1 + P

/-- One word or several, one behind another. -/
def repeated (P : RegularExpression Char) : RegularExpression Char := P * P.star

/-- A digit. -/
def digit : RegularExpression Char := oneOf "0123456789".toList

/-- A sign, which may be missing. -/
def sign : RegularExpression Char := optional (oneOf ['+', '-'])

/-- `d+ ('.' d+)?` -/
def unsigned : RegularExpression Char :=
  repeated digit * optional (.char '.' * repeated digit)

/-- `[+-]? (d+ ('.' d*)? | '.' d+)` -/
def literal : RegularExpression Char :=
  sign * (repeated digit * optional (.char '.' * digit.star) + .char '.' * repeated digit)

/-- `d+ | d+ '.' d* | d* '.' d+` -/
def magnitude : RegularExpression Char :=
  repeated digit + repeated digit * (.char '.' * digit.star) +
    digit.star * (.char '.' * repeated digit)

/-- `[eE] [+-]? d+` -/
def exponent : RegularExpression Char := oneOf ['e', 'E'] * (sign * repeated digit)

/-- A number in digits, with an exponent or without. -/
def numeral : RegularExpression Char := sign * (magnitude * optional exponent)

/-- A word in small letters or capitals. -/
def letters (word : String) : RegularExpression Char :=
  (word.toList.map fun ch => oneOf [ch, ch.toUpper]).prod

/-- What the conversion to a number takes: a number in digits, or infinity or no number in
letters. -/
def float : RegularExpression Char :=
  sign * (letters "inf" + letters "infinity" + letters "nan" + magnitude * optional exponent)

section Words

variable {cs chars : List Char} {P Q : RegularExpression Char}

/-- The words of a class are its characters. -/
theorem mem_oneOf_iff : cs ∈ (oneOf chars).matches' ↔ ∃ ch ∈ chars, cs = [ch] := by
  induction chars with
  | nil =>
    refine iff_of_false (fun h => h) ?_
    rintro ⟨ch, hch, -⟩
    cases hch
  | cons d chars ih =>
    have hcons : cs ∈ (oneOf (d :: chars)).matches' ↔ cs = [d] ∨ cs ∈ (oneOf chars).matches' :=
      Iff.rfl
    rw [hcons, ih]
    simp only [List.mem_cons, exists_eq_or_imp]

/-- An optional part may be missing. -/
theorem mem_optional_iff : cs ∈ (optional P).matches' ↔ cs = [] ∨ cs ∈ P.matches' :=
  Iff.rfl

theorem mem_mul_iff : cs ∈ (P * Q).matches' ↔ ∃ v ∈ P.matches', ∃ w ∈ Q.matches', v ++ w = cs :=
  Language.mem_mul

theorem mem_add_iff : cs ∈ (P + Q).matches' ↔ cs ∈ P.matches' ∨ cs ∈ Q.matches' :=
  Iff.rfl

theorem mem_char_iff {ch : Char} :
    cs ∈ (RegularExpression.char ch).matches' ↔ cs = [ch] :=
  Iff.rfl

/-- Words of one character each, one behind another, are any characters of the class. -/
theorem mem_star_oneOf_iff : cs ∈ (oneOf chars).star.matches' ↔ ∀ ch ∈ cs, ch ∈ chars := by
  rw [RegularExpression.matches'_star, Language.mem_kstar]
  constructor
  · rintro ⟨words, rfl, hwords⟩ ch hch
    obtain ⟨word, hword, hch⟩ := List.mem_flatten.1 hch
    obtain ⟨d, hd, rfl⟩ := mem_oneOf_iff.1 (hwords word hword)
    rwa [List.mem_singleton.1 hch]
  · intro h
    refine ⟨cs.map fun ch => [ch], ?_, fun word hword => ?_⟩
    · rw [← List.flatMap_def, List.flatMap_singleton']
    · obtain ⟨ch, hch, rfl⟩ := List.mem_map.1 hword
      exact mem_oneOf_iff.2 ⟨ch, h ch hch, rfl⟩

/-- The ten characters are the digits. -/
theorem mem_digits_iff {ch : Char} : ch ∈ "0123456789".toList ↔ ch.isDigit = true := by
  constructor
  · have hall : "0123456789".toList.all Char.isDigit = true := by decide
    exact List.all_eq_true.1 hall ch
  · intro h
    obtain ⟨hlow, hhigh⟩ := Char.isDigit_iff_toNat.1 h
    have hten : ∀ n < 10, Char.ofNat ('0'.toNat + n) ∈ "0123456789".toList := by decide
    have hch := hten (ch.toNat - '0'.toNat) (by simp only [Char.reduceToNat] at *; omega)
    rwa [Nat.add_sub_cancel' hlow, Char.ofNat_toNat] at hch

/-- The words of `d*` are the texts of digits alone. -/
theorem mem_star_digit_iff : cs ∈ digit.star.matches' ↔ allDigits cs = true := by
  rw [digit, mem_star_oneOf_iff, allDigits_iff]
  simp only [mem_digits_iff]

/-- Those of `d+` are the ones that are not empty. -/
theorem mem_repeated_digit_iff :
    cs ∈ (repeated digit).matches' ↔ cs ≠ [] ∧ allDigits cs = true := by
  rw [repeated, mem_mul_iff]
  constructor
  · rintro ⟨v, hv, w, hw, rfl⟩
    obtain ⟨ch, hch, rfl⟩ := mem_oneOf_iff.1 hv
    refine ⟨List.cons_ne_nil ch w, (allDigits_append _ _).2 ⟨?_, mem_star_digit_iff.1 hw⟩⟩
    rw [allDigits_iff]
    intro d hd
    rw [List.mem_singleton.1 hd]
    exact mem_digits_iff.1 hch
  · rintro ⟨hne, hdigits⟩
    obtain ⟨ch, w, rfl⟩ := List.exists_cons_of_ne_nil hne
    have hparts := (allDigits_append [ch] w).1 hdigits
    have hch : ch ∈ "0123456789".toList :=
      mem_digits_iff.2 (allDigits_iff.1 hdigits ch List.mem_cons_self)
    exact ⟨[ch], mem_oneOf_iff.2 ⟨ch, hch, rfl⟩, w, mem_star_digit_iff.2 hparts.2, rfl⟩

/-- The words of `[+-]?` are the signs. -/
theorem mem_sign_iff : cs ∈ sign.matches' ↔ IsSign cs := by
  rw [sign, mem_optional_iff, mem_oneOf_iff, IsSign]
  simp only [List.mem_cons, List.not_mem_nil, or_false, exists_eq_or_imp, exists_eq_left]
  exact or_congr_right or_comm

end Words

/-! ### Literals and unsigned decimals -/

section Decimals

variable {cs : List Char}

/-- **The recognizer of unsigned decimals accepts the words of its expression.** -/
theorem mem_unsigned_iff : cs ∈ unsigned.matches' ↔ isUnsigned cs = true := by
  rw [isUnsigned_iff, unsigned]
  simp only [mem_mul_iff, mem_optional_iff, mem_char_iff, mem_repeated_digit_iff, exists_eq_left,
    List.singleton_append]
  constructor
  · rintro ⟨w, ⟨hne, hw⟩, v, rfl | ⟨f, ⟨hfne, hf⟩, rfl⟩, rfl⟩
    · rw [List.append_nil]
      exact ⟨_, _, .whole hne hw⟩
    · exact ⟨_, _, .point hne hw hfne hf⟩
  · rintro ⟨n, k, ⟨hne, hw⟩ | ⟨hne, hw, hfne, hf⟩⟩
    · exact ⟨_, ⟨hne, hw⟩, [], .inl rfl, List.append_nil _⟩
    · exact ⟨_, ⟨hne, hw⟩, _, .inr ⟨_, ⟨hfne, hf⟩, rfl⟩, rfl⟩

/-- **The recognizer of literals accepts the words of its expression.** -/
theorem mem_literal_iff : cs ∈ literal.matches' ↔ isLiteral cs = true := by
  rw [isLiteral_iff, literal]
  simp only [mem_add_iff, mem_mul_iff, mem_optional_iff, mem_char_iff, mem_sign_iff,
    mem_repeated_digit_iff, mem_star_digit_iff, exists_eq_left, List.singleton_append]
  constructor
  · rintro ⟨sign, hsign, v, ⟨w, ⟨hne, hw⟩, v', rfl | ⟨f, hf, rfl⟩, rfl⟩ | ⟨f, ⟨hne, hf⟩, rfl⟩, rfl⟩
    · rw [List.append_nil]
      exact .whole hsign hne hw
    · exact .point hsign hw hf (.inl hne)
    · exact .point (w := []) hsign rfl hf (.inr hne)
  · rintro (@⟨sign, w, hsign, hne, hw⟩ | @⟨sign, w, f, hsign, hw, hf, hne⟩)
    · exact ⟨sign, hsign, w, .inl ⟨w, ⟨hne, hw⟩, [], .inl rfl, List.append_nil w⟩, rfl⟩
    · refine ⟨sign, hsign, w ++ '.' :: f, ?_, rfl⟩
      by_cases hnil : w = []
      · subst hnil
        exact .inr ⟨f, ⟨hne.resolve_left (absurd rfl), hf⟩, rfl⟩
      · exact .inl ⟨w, ⟨hnil, hw⟩, '.' :: f, .inr ⟨f, hf, rfl⟩, rfl⟩

/-- A point may stand at either end, but not alone or twice. -/
example : ["1.", "+.5", "1.2.3", "+-1", "", "."].map (fun s => literal.rmatch s.toList) =
    [true, true, false, false, false, false] := by decide

/-- **The recognizer of magnitudes accepts the words of its expression.** -/
theorem mem_magnitude_iff : cs ∈ magnitude.matches' ↔ isMagnitude cs = true := by
  rw [isMagnitude_iff, magnitude]
  simp only [mem_add_iff, mem_mul_iff, mem_char_iff, mem_repeated_digit_iff, mem_star_digit_iff,
    exists_eq_left, List.singleton_append]
  constructor
  · rintro ((hdigits | ⟨w, ⟨hne, hw⟩, v, ⟨f, hf, rfl⟩, rfl⟩) | ⟨w, hw, v, ⟨f, ⟨hne, hf⟩, rfl⟩, rfl⟩)
    · exact .inl hdigits
    · exact .inr ⟨w, f, rfl, hw, hf, .inl hne⟩
    · exact .inr ⟨w, f, rfl, hw, hf, .inr hne⟩
  · rintro (hdigits | ⟨w, f, rfl, hw, hf, hne | hne⟩)
    · exact .inl (.inl hdigits)
    · exact .inl (.inr ⟨w, ⟨hne, hw⟩, _, ⟨f, hf, rfl⟩, rfl⟩)
    · exact .inr ⟨w, hw, _, ⟨f, ⟨hne, hf⟩, rfl⟩, rfl⟩

end Decimals

/-! ### Numerals -/

section Numerals

variable {cs part : List Char}

/-- An exponent is read exactly if it is digits, perhaps with a sign. -/
theorem exists_parseExponent?_iff :
    (∃ k, Numeral.parseExponent? part = some k) ↔
      dropSign part ≠ [] ∧ allDigits (dropSign part) = true := by
  have hbranch {P : Prop} [Decidable P] (k : Int) :
      (∃ i, (if P then some k else none) = some i) ↔ P := by
    by_cases hP : P <;> simp [hP]
  unfold Numeral.parseExponent? dropSign
  split <;> exact hbranch _

/-- An exponent is a mark and digits, with a sign between them or without. -/
theorem mem_exponent_iff :
    cs ∈ exponent.matches' ↔ ∃ mark part, cs = mark :: part ∧
      Numeral.isExponentMark mark = true ∧ ∃ k, Numeral.parseExponent? part = some k := by
  have hmark {mark : Char} : mark ∈ ['e', 'E'] ↔ Numeral.isExponentMark mark = true := by
    simp [Numeral.isExponentMark]
  simp only [exponent, mem_mul_iff, mem_oneOf_iff, mem_sign_iff, mem_repeated_digit_iff, hmark,
    exists_parseExponent?_iff]
  constructor
  · rintro ⟨v, ⟨mark, hmark, rfl⟩, w, ⟨sign, hsign, digits, ⟨hne, hdigits⟩, rfl⟩, rfl⟩
    have hdrop : dropSign (sign ++ digits) = digits :=
      dropSign_append hsign fun ch hch => .inl (allDigits_iff.1 hdigits ch (List.mem_of_head? hch))
    exact ⟨mark, sign ++ digits, rfl, hmark, hdrop.symm ▸ hne, hdrop.symm ▸ hdigits⟩
  · rintro ⟨mark, part, rfl, hmark, hdigits⟩
    obtain ⟨sign, hsign, hpart⟩ := exists_sign part
    exact ⟨[mark], ⟨mark, hmark, rfl⟩, part, ⟨sign, hsign, _, hdigits, hpart.symm⟩, rfl⟩

/-- **The numerals are the words of their regular expression.** -/
theorem mem_numeral_iff : cs ∈ numeral.matches' ↔ ∃ n, Numeral.parse? cs = some n := by
  simp only [numeral, mem_mul_iff, mem_sign_iff, mem_magnitude_iff, mem_optional_iff,
    mem_exponent_iff]
  constructor
  · rintro ⟨sign, hsign, v, ⟨m, hm, e, rfl | ⟨mark, part, rfl, hmark, k, hk⟩, rfl⟩, rfl⟩
    · rw [List.append_nil]
      exact ⟨_, numeral_of_isMagnitude hsign hm⟩
    · have hmarks := not_isExponentMark hm
      have hdrop : dropSign (sign ++ (m ++ mark :: part)) = m ++ mark :: part := by
        refine dropSign_append hsign fun ch hch => ?_
        cases m with
        | nil => cases hm
        | cons d m =>
          rw [List.cons_append, List.head?_cons] at hch
          exact mem_of_isMagnitude hm ch (Option.mem_some.1 hch ▸ List.mem_cons_self)
      have hmagnitude :
          (m ++ mark :: part).takeWhile (fun ch => !Numeral.isExponentMark ch) = m := by
        rw [List.takeWhile_append_of_pos hmarks, List.takeWhile_cons_of_neg (by simp [hmark]),
          List.append_nil]
      have hrest :
          (m ++ mark :: part).dropWhile (fun ch => !Numeral.isExponentMark ch) = mark :: part := by
        rw [List.dropWhile_append_of_pos hmarks, List.dropWhile_cons_of_neg (by simp [hmark])]
      simp only [Numeral.parse?, hdrop, hmagnitude, hrest, if_pos hm, hk, Option.map_some]
      exact ⟨_, rfl⟩
  · rintro ⟨n, hn⟩
    obtain ⟨sign, hsign, hcs⟩ := exists_sign cs
    simp only [Numeral.parse?] at hn
    split_ifs at hn with hm
    have hsplit := List.takeWhile_append_dropWhile (p := fun ch => !Numeral.isExponentMark ch)
      (l := dropSign cs)
    refine ⟨sign, hsign, dropSign cs, ⟨_, hm, _, ?_, hsplit⟩, hcs.symm⟩
    split at hn
    · rename_i hrest
      exact .inl hrest
    · rename_i mark part hrest
      obtain ⟨k, hk, -⟩ := Option.map_eq_some_iff.1 hn
      have hmark := List.head?_dropWhile_not (fun ch => !Numeral.isExponentMark ch) (dropSign cs)
      rw [hrest] at hmark
      exact .inr ⟨mark, part, hrest, by simpa using hmark, k, hk⟩

/-- The conversion to a number takes the numerals. -/
theorem exists_parse?_iff : (∃ x, Binary64.parse? cs = some x) ↔ cs ∈ numeral.matches' := by
  rw [mem_numeral_iff]
  simp only [Binary64.parse?, Option.map_eq_some_iff]
  constructor
  · rintro ⟨x, n, hn, -⟩
    exact ⟨n, hn⟩
  · rintro ⟨n, hn⟩
    exact ⟨_, n, hn, rfl⟩

end Numerals

/-! ### Each grammar inside the next -/

section Nested

variable {cs : List Char}

/-- A literal is a numeral without an exponent. -/
theorem numeral_of_literal (h : cs ∈ literal.matches') : cs ∈ numeral.matches' := by
  obtain ⟨sign, hsign, hcs⟩ := exists_sign cs
  have hm : isMagnitude (dropSign cs) = true := mem_literal_iff.1 h
  rw [mem_numeral_iff, hcs]
  exact ⟨_, numeral_of_isMagnitude hsign hm⟩

/-- A numeral is one of the texts that stand for a number; the others are names. -/
theorem float_of_numeral (h : cs ∈ numeral.matches') : cs ∈ float.matches' := by
  obtain ⟨sign, hsign, w, hw, rfl⟩ := mem_mul_iff.1 h
  exact mem_mul_iff.2 ⟨sign, hsign, w, .inr hw, rfl⟩

end Nested

end Pattern

/-- A decimal text ends with a digit. -/
theorem Writes.isDigit_last {cs : List Char} {n k : Nat} (h : Writes cs n k) :
    ∀ ch ∈ cs.getLast?, ch.isDigit = true := by
  rcases h with ⟨-, hw⟩ | @⟨w, f, -, -, hfne, hf⟩
  · exact fun ch hch => allDigits_iff.1 hw ch (List.mem_of_getLast? hch)
  · intro ch hch
    have hsplit : w ++ '.' :: f = w ++ ['.'] ++ f := by simp
    rw [hsplit, List.getLast?_append_of_ne_nil _ hfne] at hch
    exact allDigits_iff.1 hf ch (List.mem_of_getLast? hch)

/-- A text that does not begin with a sign has none. -/
theorem IsSign.eq_nil {sign cs : List Char} (h : IsSign sign)
    (hplus : (sign ++ cs).head? ≠ some '+') (hminus : (sign ++ cs).head? ≠ some '-') :
    sign = [] := by
  rcases h with rfl | rfl | rfl
  · rfl
  · exact absurd rfl hminus
  · exact absurd rfl hplus

/-- **The unsigned decimals are the literals without a sign and without a point at either end.** -/
theorem isUnsigned_iff_isLiteral {cs : List Char} :
    isUnsigned cs = true ↔ isLiteral cs = true ∧ cs.head? ≠ some '+' ∧ cs.head? ≠ some '-' ∧
      cs.head? ≠ some '.' ∧ cs.getLast? ≠ some '.' := by
  rw [isUnsigned_iff]
  constructor
  · rintro ⟨n, k, h⟩
    obtain ⟨ch, more, hcs, hch⟩ := h.exists_head
    have hfirst {d : Char} (hd : d.isDigit = false) : cs.head? ≠ some d := by
      rw [hcs, List.head?_cons, Ne, Option.some.injEq]
      exact ne_of_isDigit hch hd
    have hlast : cs.getLast? ≠ some '.' := by
      intro hpoint
      cases h.isDigit_last '.' hpoint
    exact ⟨h.isLiteral, hfirst rfl, hfirst rfl, hfirst rfl, hlast⟩
  · rintro ⟨hliteral, hplus, hminus, hfirst, hlast⟩
    rcases isLiteral_iff.1 hliteral with ⟨hsign, hne, hw⟩ | @⟨sign, w, f, hsign, hw, hf, -⟩
    · rw [hsign.eq_nil hplus hminus]
      exact ⟨_, _, .whole hne hw⟩
    · obtain rfl := hsign.eq_nil hplus hminus
      have hwne : w ≠ [] := by
        rintro rfl
        exact hfirst rfl
      have hfne : f ≠ [] := by
        rintro rfl
        exact hlast List.getLast?_concat
      exact ⟨_, _, .point hwne hw hfne hf⟩

end Decimal

/-- A literal that is refused as an invalid number has a number, and it is not finite. -/
theorem Token.exists_of_invalidNumber {t : Token} {text : String} {p : Position}
    (hliteral : Decimal.isLiteral t.text = true)
    (h : t.number = .error (.invalidNumber text p)) :
    ∃ x, Binary64.parse? t.text = some x ∧ x.isFinite = false := by
  obtain ⟨x, hx⟩ := Decimal.Pattern.exists_parse?_iff.2
    (Decimal.Pattern.numeral_of_literal (Decimal.Pattern.mem_literal_iff.2 hliteral))
  refine ⟨x, hx, ?_⟩
  by_contra hfinite
  rw [Bool.not_eq_false] at hfinite
  simp only [number, check] at h
  split_ifs at h
  · cases h
  · cases h
  · simp only [if_pos hliteral, hx, if_pos hfinite] at h
    cases h

/-- **The grammars of numbers.** The two recognizers accept the words of their regular expressions.
The unsigned decimals are the literals that have no sign and neither begin nor end with a point.
The conversion to a number takes the numerals; what either recognizer accepts is among them, and
among all that `float` allows. So a literal is refused as an invalid number only if its number
is not finite. -/
theorem Decimal.grammars_nested (cs : List Char) :
    (isLiteral cs = true ↔ cs ∈ Pattern.literal.matches') ∧
      (isUnsigned cs = true ↔ cs ∈ Pattern.unsigned.matches') ∧
      (isUnsigned cs = true ↔ isLiteral cs = true ∧ cs.head? ≠ some '+' ∧ cs.head? ≠ some '-' ∧
        cs.head? ≠ some '.' ∧ cs.getLast? ≠ some '.') ∧
      ((∃ x, Binary64.parse? cs = some x) ↔ cs ∈ Pattern.numeral.matches') ∧
      (isLiteral cs = true ∨ isUnsigned cs = true →
        cs ∈ Pattern.float.matches' ∧ ∃ x, Binary64.parse? cs = some x) ∧
      ∀ (c : Cursor) (text : String) (p : Position), c.token.text = cs → isLiteral cs = true →
        c.number.1 = .error (.invalidNumber text p) →
          ∃ x, Binary64.parse? cs = some x ∧ x.isFinite = false := by
  refine ⟨Pattern.mem_literal_iff.symm, Pattern.mem_unsigned_iff.symm, isUnsigned_iff_isLiteral,
    Pattern.exists_parse?_iff, ?_, ?_⟩
  · intro h
    have hliteral : isLiteral cs = true :=
      h.elim id fun hunsigned => (isUnsigned_iff_isLiteral.1 hunsigned).1
    have hnumeral := Pattern.numeral_of_literal (Pattern.mem_literal_iff.2 hliteral)
    exact ⟨Pattern.float_of_numeral hnumeral, Pattern.exists_parse?_iff.2 hnumeral⟩
  · rintro c text p rfl hliteral h
    exact Token.exists_of_invalidNumber hliteral h

/-- A literal of 310 digits is an invalid number, and what it is read as is infinite. -/
theorem Decimal.grammars_nested_huge :
    isLiteral ('1' :: List.replicate 309 '0') = true ∧
      (Cursor.ofList ('1' :: List.replicate 309 '0')).number.1 =
        .error (.invalidNumber (String.ofList ('1' :: List.replicate 309 '0')) .start) ∧
      ∃ x, Binary64.parse? ('1' :: List.replicate 309 '0') = some x ∧ x.isFinite = false := by
  have hliteral : isLiteral ('1' :: List.replicate 309 '0') = true := by decide +kernel
  have htoken : (Cursor.ofList ('1' :: List.replicate 309 '0')).token.text =
      '1' :: List.replicate 309 '0' := by
    decide +kernel
  have hnumber : (Cursor.ofList ('1' :: List.replicate 309 '0')).number.1 =
      .error (.invalidNumber (String.ofList ('1' :: List.replicate 309 '0')) .start) := by
    decide +kernel
  obtain ⟨-, -, -, -, -, hinvalid⟩ := grammars_nested ('1' :: List.replicate 309 '0')
  exact ⟨hliteral, hnumber, hinvalid _ _ _ htoken hliteral hnumber⟩

end ImageCheck
