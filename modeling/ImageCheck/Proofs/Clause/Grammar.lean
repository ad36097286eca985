/-
# The grammar of a clause

`SPEC_FULL` §4.6 and the grammar of §6.

What a clause is, said without a cursor: segments between commas, where a comma
inside quotes is no end of a segment.

```text
clause    := segment | segment ',' clause
segment   := blanks | blanks parameter
parameter := keytext | keytext ':' blanks value
keytext   := a character that is not blank, then any; no ':' and no ','
value     := any characters but ','; the first, if any, neither blank nor '"'
           | '"' quoted '"' blanks
quoted    := characters other than '"' and '\', and pairs of '\' and a character
```

Each relation pairs a text as written with what it stands for: `Quoted` and
`ValueText` with the value, `ParameterText` with the name and the value,
`Segment` with a parameter or nothing, `Segments` with the parameters of a clause.
-/

import ImageCheck.Clause.Split
import Mathlib.Data.List.TakeWhile

namespace ImageCheck
namespace Clause

/-- A text of blanks only. -/
def AllBlank (w : List Char) : Prop := ∀ ch ∈ w, Text.isBlank ch = true

instance (w : List Char) : Decidable (AllBlank w) :=
  List.decidableBAll (fun ch => Text.isBlank ch = true) w

/-- A text between quotes, with no quote that is not escaped, and what it stands for. -/
inductive Quoted : List Char → List Char → Prop
  | nil : Quoted [] []
  | plain {ch : Char} {w v : List Char} (hquote : ch ≠ '"') (hslash : ch ≠ '\\') (h : Quoted w v) :
      Quoted (ch :: w) (ch :: v)
  | quote {w v : List Char} (h : Quoted w v) : Quoted ('\\' :: '"' :: w) ('"' :: v)
  | backslash {w v : List Char} (h : Quoted w v) : Quoted ('\\' :: '\\' :: w) ('\\' :: v)
  | other {ch : Char} {w v : List Char} (hquote : ch ≠ '"') (hslash : ch ≠ '\\') (h : Quoted w v) :
      Quoted ('\\' :: ch :: w) ('\\' :: ch :: v)

/-- A value, from its first character that is not blank, and what it stands for. -/
inductive ValueText : List Char → List Char → Prop
  | unquoted {w : List Char} (hcomma : ',' ∉ w)
      (hhead : ∀ ch ∈ w.head?, Text.isBlank ch = false ∧ ch ≠ '"') :
      ValueText w (Text.trimEnd w)
  | quoted {w v blanks : List Char} (h : Quoted w v) (hblanks : AllBlank blanks) :
      ValueText ('"' :: (w ++ '"' :: blanks)) v

/-- A name, from its first character that is not blank up to the end of the segment or a colon. -/
structure KeyText (w : List Char) : Prop where
  /-- There is a first character, and it is not blank. -/
  head : ∃ ch ∈ w.head?, Text.isBlank ch = false
  /-- A colon would end the name. -/
  colon : ':' ∉ w
  /-- A comma would end the segment. -/
  comma : ',' ∉ w

/-- A parameter, from its first character that is not blank, with its name and its value. -/
inductive ParameterText : List Char → List Char → List Char → Prop
  | flag {key : List Char} (hkey : KeyText key) : ParameterText key (Text.trimEnd key) []
  | pair {key gap w v : List Char} (hkey : KeyText key) (hgap : AllBlank gap)
      (hvalue : ValueText w v) :
      ParameterText (key ++ ':' :: (gap ++ w)) (Text.trimEnd key) v

/-- A segment that begins at `start`, and its parameter if it has one. -/
inductive Segment (start : Position) : List Char → Option Parameter → Prop
  | blank {w : List Char} (h : AllBlank w) : Segment start w none
  | parameter {blanks w key value : List Char} (hblanks : AllBlank blanks)
      (h : ParameterText w key value) :
      Segment start (blanks ++ w)
        (some ⟨String.ofList key, String.ofList value, start.advanceBy blanks⟩)

/-- The segments of a clause from `start` on, and their parameters in order. -/
inductive Segments : Position → List Char → List Parameter → Prop
  | last {start : Position} {w : List Char} {p : Option Parameter} (h : Segment start w p) :
      Segments start w p.toList
  | cons {start : Position} {w rest : List Char} {p : Option Parameter} {ps : List Parameter}
      (h : Segment start w p) (hrest : Segments ((start.advanceBy w).advance ',') rest ps) :
      Segments start (w ++ ',' :: rest) (p.toList ++ ps)

/-- What can follow a segment: the end of the clause, or a comma. -/
def EndsSegment (rest : List Char) : Prop := ∀ ch ∈ rest.head?, ch = ','

/-- Behind a segment stands the end of the clause or a comma. -/
theorem endsSegment_iff {rest : List Char} :
    EndsSegment rest ↔ rest = [] ∨ ∃ more, rest = ',' :: more := by
  cases rest <;> simp [EndsSegment]

/-- Blanks end no segment. -/
theorem EndsSegment.not_isBlank {rest : List Char} (h : EndsSegment rest) :
    ∀ ch ∈ rest.head?, Text.isBlank ch = false := by
  intro ch hch
  rw [h ch hch]
  exact Text.isBlank_comma

/-- What ends a segment ends a value. -/
theorem EndsSegment.endsValue {rest : List Char} (h : EndsSegment rest) :
    ∀ ch ∈ rest.head?, Clause.endsValue ch = true := by
  intro ch hch
  rw [h ch hch]
  rfl

/-- No character of a name ends the name. -/
theorem KeyText.endsKey {w : List Char} (h : KeyText w) : ∀ ch ∈ w, Clause.endsKey ch = false := by
  intro ch hch
  simp only [Clause.endsKey, Bool.or_eq_false_iff, decide_eq_false_iff_not]
  constructor
  · rintro rfl
    exact h.colon hch
  · rintro rfl
    exact h.comma hch

/-- A name keeps its first character when its blanks at the end are cut off. -/
theorem KeyText.trimEnd_ne_nil {w : List Char} (h : KeyText w) : Text.trimEnd w ≠ [] := by
  obtain ⟨ch, hch, hblank⟩ := h.head
  obtain ⟨more, rfl⟩ := List.head?_eq_some_iff.1 hch
  intro hnil
  have hall : ∀ d ∈ (ch :: more).reverse, Text.isBlank d = true := by
    simpa [Text.trimEnd] using hnil
  rw [hall ch (by simp)] at hblank
  cases hblank

/-- A parameter begins with a character that is neither blank nor a comma. -/
theorem ParameterText.exists_head {w key value : List Char} (h : ParameterText w key value) :
    ∃ ch more, w = ch :: more ∧ Text.isBlank ch = false ∧ ch ≠ ',' := by
  have hkeytext : ∃ keytext rest, KeyText keytext ∧ w = keytext ++ rest := by
    cases h with
    | flag hkey => exact ⟨w, [], hkey, (List.append_nil w).symm⟩
    | pair hkey _ _ => exact ⟨_, _, hkey, rfl⟩
  obtain ⟨keytext, rest, hkey, rfl⟩ := hkeytext
  obtain ⟨ch, hch, hblank⟩ := hkey.head
  obtain ⟨more, rfl⟩ := List.head?_eq_some_iff.1 hch
  refine ⟨ch, more ++ rest, rfl, hblank, ?_⟩
  rintro rfl
  exact hkey.comma List.mem_cons_self

end Clause
end ImageCheck
