/-
# Quoting keeps every value

`SPEC_FULL` §4.6: values may be double-quoted, with escapes inside.

Any value can be given to a parameter: written between quotes, with a backslash
before each quote and each backslash in it, it is read back as it was. Nothing in
it is looked at as a separator, and no blank of it is trimmed.

`quoted_escape` is the heart: an escaped value is quoted text that stands for the
value. `QuotedPair.segment` puts a name and blanks around it, and
`split_joinPairs` takes a whole list of such pairs through `split`.
-/

import ImageCheck.Proofs.Clause.Splitting

namespace ImageCheck

/-- A text that does not end with a blank has nothing to trim. -/
theorem Text.trimEnd_eq_self {w : List Char} (h : ∀ ch ∈ w.getLast?, isBlank ch = false) :
    trimEnd w = w := by
  rcases List.eq_nil_or_concat w with rfl | ⟨w, ch, rfl⟩
  · rfl
  · have hch : isBlank ch = false := h ch (by simp)
    simp [trimEnd, hch]

namespace Clause

/-- A value as it is written between quotes. -/
def escape (value : String) : String :=
  String.ofList (value.toList.flatMap fun ch =>
    if ch = '"' ∨ ch = '\\' then ['\\', ch] else [ch])

/-- An escaped value is quoted text that stands for the value. -/
theorem quoted_escape (value : String) : Quoted (escape value).toList value.toList := by
  rw [escape, String.toList_ofList]
  induction value.toList with
  | nil => exact .nil
  | cons ch cs ih =>
    rw [List.flatMap_cons]
    by_cases hquote : ch = '"'
    · subst hquote
      exact .quote ih
    · by_cases hslash : ch = '\\'
      · subst hslash
        exact .backslash ih
      · rw [if_neg (not_or.2 ⟨hquote, hslash⟩)]
        exact .plain hquote hslash ih

/-- A name with a value, to be written between quotes, and the blanks and commas around them. -/
structure QuotedPair where
  /-- The name. -/
  key : String
  /-- The value, any text at all. -/
  value : String
  /-- The blanks before the name. -/
  before : String
  /-- The blanks after the closing quote. -/
  after : String
  /-- The commas between this pair and the next, beside the one that is always there. -/
  moreCommas : Nat
  key_ne_empty : key ≠ ""
  key_head : ∀ ch ∈ key.toList.head?, Text.isBlank ch = false
  key_last : ∀ ch ∈ key.toList.getLast?, Text.isBlank ch = false
  key_colon : ':' ∉ key.toList
  key_comma : ',' ∉ key.toList
  before_blank : AllBlank before.toList
  after_blank : AllBlank after.toList

namespace QuotedPair

/-- A pair as it is written. -/
def text (pair : QuotedPair) : String :=
  pair.before ++ pair.key ++ ": \"" ++ escape pair.value ++ "\"" ++ pair.after

/-- The name of a pair may stand as a name in a clause. -/
theorem keyText (pair : QuotedPair) : KeyText pair.key.toList := by
  refine ⟨?_, pair.key_colon, pair.key_comma⟩
  cases hcs : pair.key.toList with
  | nil => exact absurd (String.toList_eq_nil_iff.1 hcs) pair.key_ne_empty
  | cons ch cs => exact ⟨ch, rfl, pair.key_head ch (by rw [hcs]; rfl)⟩

/-- A pair is a segment, with its own name and value. -/
theorem segment (pair : QuotedPair) (start : Position) :
    Segment start pair.text.toList
      (some ⟨pair.key, pair.value, start.advanceBy pair.before.toList⟩) := by
  have hvalue := ValueText.quoted (quoted_escape pair.value) pair.after_blank
  have hgap : AllBlank [' '] := by
    simp [AllBlank, Text.isBlank_space]
  have hpair := ParameterText.pair pair.keyText hgap hvalue
  rw [Text.trimEnd_eq_self pair.key_last] at hpair
  have hsegment : Segment start _ _ := .parameter pair.before_blank hpair
  simpa [text] using hsegment

end QuotedPair

/-- Pairs with commas between them. -/
def joinPairs : List QuotedPair → String
  | [] => ""
  | [pair] => pair.text
  | pair :: next :: pairs =>
    pair.text ++ String.ofList (List.replicate (pair.moreCommas + 1) ',') ++
      joinPairs (next :: pairs)

/-- Commas without anything between them are empty segments. -/
theorem Segments.replicate {start : Position} {n : Nat} {rest : List Char} {ps : List Parameter}
    (h : Segments (start.advanceBy (List.replicate n ',')) rest ps) :
    Segments start (List.replicate n ',' ++ rest) ps := by
  induction n generalizing start with
  | zero => exact h
  | succ n ih =>
    have hempty : Segment start [] none := .blank (by simp [AllBlank])
    exact .cons hempty (ih h)

/-- Joined pairs are a clause of the grammar, with their names and values in order. -/
theorem exists_segments_joinPairs (pairs : List QuotedPair) (start : Position) :
    ∃ ps, Segments start (joinPairs pairs).toList ps ∧
      ps.map (fun p => (p.key, p.value)) = pairs.map fun pair => (pair.key, pair.value) := by
  induction pairs generalizing start with
  | nil => exact ⟨_, .last (.blank (by simp [AllBlank, joinPairs])), rfl⟩
  | cons pair pairs ih =>
    cases pairs with
    | nil => exact ⟨_, .last (pair.segment start), rfl⟩
    | cons next pairs =>
      have htext : (joinPairs (pair :: next :: pairs)).toList =
          pair.text.toList ++ ',' :: (List.replicate pair.moreCommas ',' ++
            (joinPairs (next :: pairs)).toList) := by
        simp [joinPairs, List.replicate_succ]
      obtain ⟨ps, hps, hmap⟩ := ih (((start.advanceBy pair.text.toList).advance ',').advanceBy
        (List.replicate pair.moreCommas ','))
      rw [htext]
      exact ⟨_, .cons (pair.segment start) hps.replicate, by simp [hmap]⟩

/-- **Quoting keeps every value.** Pairs written with quoted values, blanks around them and commas
between them are split into the same names and values, in order, as long as the clause is not too
long. -/
theorem split_joinPairs (pairs : List QuotedPair)
    (hlen : (joinPairs pairs).utf8ByteSize ≤ 65536) :
    ∃ ps, split (joinPairs pairs) = .ok ps ∧
      ps.map (fun p => (p.key, p.value)) = pairs.map fun pair => (pair.key, pair.value) := by
  obtain ⟨ps, hps, hmap⟩ := exists_segments_joinPairs pairs .start
  rw [← Text.bytes_toList] at hlen
  refine ⟨ps, ?_, hmap⟩
  rw [split_of_le hlen]
  exact splitFrom_eq_ok_iff.2 hps

/-- Two pairs whose values look like separators, escapes and quotes, with three commas between
them. -/
def separatorPairs : List QuotedPair :=
  [ { key := "file", value := " a, b: \"c\\", before := " ", after := "\n", moreCommas := 2
      key_ne_empty := by decide
      key_head := by
        rintro ch ⟨rfl⟩
        decide
      key_last := by
        rintro ch ⟨rfl⟩
        decide
      key_colon := by decide
      key_comma := by decide
      before_blank := by decide
      after_blank := by decide },
    { key := "crop if", value := "", before := "", after := " ", moreCommas := 0
      key_ne_empty := by decide
      key_head := by
        rintro ch ⟨rfl⟩
        decide
      key_last := by
        rintro ch ⟨rfl⟩
        decide
      key_colon := by decide
      key_comma := by decide
      before_blank := by decide
      after_blank := by decide } ]

/-- The values of `separatorPairs` come back from their clause. -/
theorem split_joinPairs_separatorPairs :
    ∃ ps, split (joinPairs separatorPairs) = .ok ps ∧
      ps.map (fun p => (p.key, p.value)) = [("file", " a, b: \"c\\"), ("crop if", "")] :=
  split_joinPairs separatorPairs (by decide)

end Clause
end ImageCheck
