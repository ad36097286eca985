/-
# Error rates that survive printing

`SPEC_FULL` §3: the text of an error rate round-trips.

A text that is read as an error rate is an unsigned decimal, perhaps blanks, and a unit
(`exists_writes_of_parse`). The text of the rate, printed, is read as the rate again if
the decimal is below `2^1024 - 2^970`; from there on it rounds to infinity, whose text
`inf` is no decimal, and the printed rate is refused:

| decimal | value | text | read again |
| --- | --- | --- | --- |
| below `2^1024 - 2^970` | finite | the shortest decimal | the same rate |
| any other | infinite | `inf` | refused |

`parse_text_of_parse` says so for every text, and for the JSON form of a rate too. A
number of a filter or an area is refused where it rounds to infinity; an error rate is
not, and that is how such a rate comes into a specification (`parse_text_hugeRate`).
-/

import ImageCheck.Proofs.Spec.Json
import ImageCheck.Proofs.Text.Place

namespace ImageCheck
namespace ErrorRate

/-! ### Texts that are read -/

/-- A unit that is found stands behind the text. -/
theorem eq_append_of_splitUnit? {cs before : List Char} {unit : RateUnit}
    (h : splitUnit? cs = some (before, unit)) : cs = before ++ unit.suffix.toList := by
  unfold splitUnit? at h
  split at h
  · rename_i rest hreverse
    obtain ⟨rfl, rfl⟩ := Prod.mk.inj (Option.some.inj h)
    rw [← List.reverse_inj, hreverse]
    simp [RateUnit.suffix]
  · rename_i rest hreverse
    obtain ⟨rfl, rfl⟩ := Prod.mk.inj (Option.some.inj h)
    rw [← List.reverse_inj, hreverse]
    simp [RateUnit.suffix]
  · cases h

/-- **What a text is that is read as a rate**: a decimal, blanks and the unit, and the value is the
number nearest to the decimal. -/
theorem exists_writes_of_parse {text : String} {r : ErrorRate} (h : parse text = .ok r) :
    ∃ number blanks n k, Text.trim text.toList = number ++ blanks ++ r.unit.suffix.toList ∧
      (∀ ch ∈ blanks, Text.isBlank ch = true) ∧ Decimal.Writes number n k ∧
      r.value = .ofFraction false n (10 ^ k) := by
  simp only [parse] at h
  split at h
  · cases h
  split at h
  · cases h
  rename_i before unit hunit
  split at h
  · rename_i hunsigned
    obtain ⟨n, k, hwrites⟩ := Decimal.isUnsigned_iff.1 hunsigned
    rw [hwrites.parse?_eq] at h
    obtain rfl := Except.ok.inj h
    obtain ⟨blanks, hbefore, hblanks, -⟩ := Text.exists_blanks_trimEnd before
    refine ⟨Text.trimEnd before, blanks, n, k, ?_, hblanks, hwrites, rfl⟩
    rw [← hbefore]
    exact eq_append_of_splitUnit? hunit
  · cases h

/-! ### Rates that are infinite -/

/-- An infinite rate is printed as `inf` with its unit. -/
theorem text_of_infinite {r : ErrorRate} (hinfinite : r.value.isFinite = false)
    (hsign : r.value.negative = false) : r.text = "inf" ++ r.unit.suffix := by
  have hrank : ¬ r.value.rank < Binary64.topRank := of_decide_eq_false hinfinite
  have hzero : r.value.rank ≠ 0 := by
    intro h
    exact hrank (by rw [h]; decide)
  have htext : r.value.text = "inf" := by
    rw [Binary64.text, hsign, Decimal.magnitudeText, if_neg hzero, if_neg hrank]
    rfl
  rw [text, htext]

/-- The text of an infinite rate is refused. -/
theorem parse_text_of_infinite {r : ErrorRate} (hinfinite : r.value.isFinite = false)
    (hsign : r.value.negative = false) : parse r.text = .error (.invalidValue r.text) := by
  rw [text_of_infinite hinfinite hsign]
  cases r.unit <;> rfl

/-- The JSON form of a rate is read as its text is. -/
theorem ofJson?_toJson_eq (r : ErrorRate) : ofJson? r.toJson = (parse r.text).toOption := rfl

/-- A specification with an infinite rate is not read back from its JSON value. -/
theorem ofJson?_toJson_of_infinite {s : Spec} (hinfinite : s.errorRate.value.isFinite = false)
    (hsign : s.errorRate.value.negative = false) : Spec.ofJson? s.toJson = none := by
  have hrecord : s.toJson.record? Spec.fieldNames = _ := Json.record?_object (by decide) rfl
  have hrate : ofJson? s.errorRate.toJson = none := by
    rw [ofJson?_toJson_eq, parse_text_of_infinite hinfinite hsign]
    rfl
  simp only [Spec.ofJson?, hrecord, List.map_cons, List.map_nil]
  simp [hrate]

/-! ### The result -/

/-- **Which rates survive printing.** A rate that was read from a text is read again from its own
text, and from its JSON form, if it is finite; the text of an infinite rate is refused. Which of the
two it is shows in the text already: it is a decimal, blanks and a unit, and the rate is finite if
the decimal is below `2^1024 - 2^970`. -/
theorem parse_text_of_parse {t : String} {r : ErrorRate} (h : parse t = .ok r) :
    (r.value.isFinite = true → parse r.text = .ok r ∧ ofJson? r.toJson = some r) ∧
    (r.value.isFinite = false →
      parse r.text = .error (.invalidValue r.text) ∧ ofJson? r.toJson = none) ∧
    ∃ number blanks n k, Text.trim t.toList = number ++ blanks ++ r.unit.suffix.toList ∧
      (∀ ch ∈ blanks, Text.isBlank ch = true) ∧ Decimal.Writes number n k ∧
      (r.value.isFinite = true ↔ n < (2 ^ 1024 - 2 ^ 970) * 10 ^ k) := by
  obtain ⟨number, blanks, n, k, htrim, hblanks, hwrites, hvalue⟩ := exists_writes_of_parse h
  have hsign : r.value.negative = false := by
    rw [hvalue]
    rfl
  refine ⟨fun hfinite => ?_, fun hinfinite => ?_, number, blanks, n, k, htrim, hblanks, hwrites, ?_⟩
  · rw [ofJson?_toJson_eq, parse_text hfinite hsign]
    exact ⟨rfl, rfl⟩
  · rw [ofJson?_toJson_eq, parse_text_of_infinite hinfinite hsign]
    exact ⟨rfl, rfl⟩
  · rw [hvalue]
    exact Binary64.isFinite_ofFraction_iff false (Nat.pow_pos (by decide))

/-- A whole number, blanks and a unit are read as a rate. -/
theorem parse_toString_append (n : Nat) (blanks : List Char) (unit : RateUnit)
    (hblanks : ∀ ch ∈ blanks, Text.isBlank ch = true) :
    parse (toString n ++ String.ofList blanks ++ unit.suffix) =
      .ok ⟨.ofFraction false n 1, unit⟩ := by
  have htoList : (toString n ++ String.ofList blanks ++ unit.suffix).toList =
      Decimal.digitsOf n ++ blanks ++ unit.suffix.toList := by
    rw [String.toList_append, String.toList_append, String.toList_ofList,
      Decimal.toList_toString_nat]
  have hwrites := Decimal.writes_digitsOf n
  have hparse := parse_of_trim_eq (by rw [htoList, trim_append_suffix hwrites]) hblanks hwrites
  rwa [Nat.pow_zero] at hparse

/-- The largest whole number that rounds to a finite one is a rate that survives printing, also with
blanks before its unit. -/
theorem parse_text_of_parse_largest :
    ∃ r, parse (toString (2 ^ 1024 - 2 ^ 970 - 1) ++ "  " ++ "px") = .ok r ∧
      r.value.isFinite = true ∧ parse r.text = .ok r ∧ ofJson? r.toJson = some r := by
  have hread := parse_toString_append (2 ^ 1024 - 2 ^ 970 - 1) [' ', ' '] .pixels
    (by simp [Text.isBlank_space])
  have hfinite : (Binary64.ofFraction false (2 ^ 1024 - 2 ^ 970 - 1) 1).isFinite = true := by
    rw [Binary64.isFinite_ofFraction_iff false Nat.one_pos]
    decide +kernel
  exact ⟨_, hread, hfinite, (parse_text_of_parse hread).1 hfinite⟩

/-- A rate of 310 digits. -/
def hugeRate : String := toString (10 ^ 309) ++ "%"

/-- `hugeRate` is read as an infinite rate. -/
theorem exists_parse_hugeRate :
    ∃ r, parse hugeRate = .ok r ∧ r.unit = .percent ∧ r.value.isFinite = false ∧
      r.value.negative = false := by
  have hread := parse_toString_append (10 ^ 309) [] .percent (by simp)
  rw [String.ofList_nil, String.append_empty, RateUnit.suffix] at hread
  rw [hugeRate]
  refine ⟨_, hread, rfl, ?_, rfl⟩
  rw [← Bool.not_eq_true, Binary64.isFinite_ofFraction_iff false Nat.one_pos]
  decide +kernel

/-- A rate that is read from a text comes into the specification of an image. -/
theorem compileParameters_image_rate {t : String} {r : ErrorRate} (h : parse t = .ok r) :
    compileParameters none .builtin [⟨"file", "a.png", .start⟩, ⟨"error", t, .start⟩] =
      .ok { Spec.initial .builtin with images := ["a.png"], errorRate := r } := by
  have hrate (s : Spec) : s.apply none ⟨"error", t, .start⟩ = .ok { s with errorRate := r } := by
    show s.set none .error t = _
    unfold Spec.set
    simp only [h]
  have hrun : List.foldlM (Spec.apply none) (Spec.initial .builtin)
      [⟨"file", "a.png", .start⟩, ⟨"error", t, .start⟩] =
        .ok { Spec.initial .builtin with images := ["a.png"], errorRate := r } := by
    show List.foldlM (Spec.apply none) { Spec.initial .builtin with images := ["a.png"] }
      [⟨"error", t, .start⟩] = _
    rw [List.foldlM_cons, hrate]
    rfl
  rw [compileParameters, applyAll, hrun]
  rfl

/-- **A rate that does not survive printing.** The text is read as an infinite rate, whose text is
refused. Parameters that give this rate compile, and the JSON of their specification is refused. -/
theorem parse_text_hugeRate :
    ∃ r, parse hugeRate = .ok r ∧ parse r.text = .error (.invalidValue "inf%") ∧
      ∃ s, compileParameters none .builtin
          [⟨"file", "a.png", .start⟩, ⟨"error", hugeRate, .start⟩] = .ok s ∧
        s.errorRate = r ∧
        (Json.read? (String.ofList s.toJson.compact)).bind Spec.ofJson? = none := by
  obtain ⟨r, hread, hunit, hinfinite, hsign⟩ := exists_parse_hugeRate
  have htext : r.text = "inf%" := by
    rw [text_of_infinite hinfinite hsign, hunit]
    rfl
  have hparse := parse_text_of_infinite hinfinite hsign
  rw [htext] at hparse
  refine ⟨r, hread, by rw [htext, hparse], _, compileParameters_image_rate hread, rfl, ?_⟩
  rw [Json.read?_compact (Spec.proper_toJson _), Option.bind_some]
  exact ofJson?_toJson_of_infinite hinfinite hsign

end ErrorRate
end ImageCheck
