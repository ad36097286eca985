/-
# Clauses that cannot be split

`SPEC_FULL` §4.6; the failures of `split_parameters`.

The grammar of `ImageCheck.Proofs.Clause.Grammar` says which clauses split. This module
says how the others fail: after segments of the grammar comes one that is broken, by
a missing name, by a quote that is never closed, or by stray text behind a quoted value.

```text
broken    := blanks brokenpar | segment ',' broken
brokenpar := ':' … | keytext ':' blanks '"' unclosed
           | keytext ':' blanks '"' quoted '"' blanks stray …
unclosed  := quoted | quoted '\'
stray     := a character that is not blank, then any; no ','
```

Each relation pairs a text and its place with the failure that is reported for it.
`Broken` is all that `split` can fail with besides the length of a clause
(`splitFrom_eq_error_iff`).
-/

import ImageCheck.Proofs.Clause.Splitting

namespace ImageCheck
namespace Clause

/-- Text after an opening quote that the clause ends in; its last character may be a backslash that
escapes nothing. -/
def Unclosed (w : List Char) : Prop := ∃ u v, Quoted u v ∧ (w = u ∨ w = u ++ ['\\'])

/-- Text that may not stand behind a quoted value, up to the end of the segment. -/
structure Stray (w : List Char) : Prop where
  /-- It begins with a character that is not blank. -/
  head : ∃ ch ∈ w.head?, Text.isBlank ch = false
  /-- A comma would end the segment. -/
  comma : ',' ∉ w

/-- A value after its colon, and all that follows it, where the value fails. -/
inductive BrokenValue (start : Position) : List Char → SplitError → Prop
  | unterminated {gap w : List Char} (hgap : AllBlank gap) (hw : Unclosed w) :
      BrokenValue start (gap ++ '"' :: w) (.unterminatedQuote (start.advanceBy gap))
  | unexpected {gap w v blanks stray rest : List Char} (hgap : AllBlank gap) (hw : Quoted w v)
      (hblanks : AllBlank blanks) (hstray : Stray stray) (hrest : EndsSegment rest) :
      BrokenValue start (gap ++ '"' :: (w ++ '"' :: (blanks ++ (stray ++ rest))))
        (.unexpectedAfterQuote (String.ofList (Text.trimEnd stray))
          (start.advanceBy (gap ++ '"' :: (w ++ '"' :: blanks))))

/-- A parameter from its first character that is not blank, and all that follows it, where the
parameter fails. -/
inductive BrokenParameter (start : Position) : List Char → SplitError → Prop
  | emptyKey {rest : List Char} : BrokenParameter start (':' :: rest) (.emptyKey start)
  | value {key rest : List Char} {e : SplitError} (hkey : KeyText key)
      (h : BrokenValue ((start.advanceBy key).advance ':') rest e) :
      BrokenParameter start (key ++ ':' :: rest) e

/-- A clause from `start` on, with a first segment that fails. -/
inductive Broken : Position → List Char → SplitError → Prop
  | here {start : Position} {blanks w : List Char} {e : SplitError} (hblanks : AllBlank blanks)
      (h : BrokenParameter (start.advanceBy blanks) w e) : Broken start (blanks ++ w) e
  | later {start : Position} {w rest : List Char} {p : Option Parameter} {e : SplitError}
      (h : Segment start w p) (hrest : Broken ((start.advanceBy w).advance ',') rest e) :
      Broken start (w ++ ',' :: rest) e

/-! ### Quotes -/

/-- Text without a closing quote is read to its end in vain. -/
theorem Unclosed.readQuoted_eq {w : List Char} (h : Unclosed w) (value : List Char)
    (start : Position) : readQuoted value start w = none := by
  obtain ⟨u, v, hu, rfl | rfl⟩ := h
  · have hread := readQuoted_quoted hu value start []
    rw [List.append_nil] at hread
    rw [hread, readQuoted]
  · rw [readQuoted_quoted hu, readQuoted]

/-- One more character, or one more escape, before text without a closing quote. -/
theorem Unclosed.cons {x y w : List Char} (hxy : ∀ u v, Quoted u v → Quoted (x ++ u) (y ++ v))
    (h : Unclosed w) : Unclosed (x ++ w) := by
  obtain ⟨u, v, hu, rfl | rfl⟩ := h
  · exact ⟨_, _, hxy _ _ hu, .inl rfl⟩
  · exact ⟨_, _, hxy _ _ hu, .inr (List.append_assoc ..).symm⟩

/-- Text that is read to its end without a closing quote has none. -/
theorem unclosed_of_readQuoted {value : List Char} {start : Position} {cs : List Char}
    (h : readQuoted value start cs = none) : Unclosed cs := by
  fun_induction readQuoted value start cs with
  | case1 => exact ⟨[], [], .nil, .inl rfl⟩
  | case2 => cases h
  | case3 => exact ⟨[], [], .nil, .inr rfl⟩
  | case4 value start ch rest q hch ih =>
    refine (ih h).cons (x := ['\\', ch]) (y := [ch]) fun u v hu => ?_
    rcases hch with rfl | rfl
    · exact .quote hu
    · exact .backslash hu
  | case5 value start ch rest q hch ih =>
    obtain ⟨hquote, hslash⟩ := not_or.1 hch
    exact (ih h).cons (x := ['\\', ch]) (y := ['\\', ch]) fun u v hu => .other hquote hslash hu
  | case6 value start ch rest hquote hlast hslash ih =>
    -- a backslash has a case of its own, at the end of the text and before another character
    have hne : ch ≠ '\\' := by
      intro hch
      cases hcs : rest with
      | nil => exact hlast hch hcs
      | cons d more => exact hslash d more hch hcs
    exact (ih h).cons (x := [ch]) (y := [ch]) fun u v hu => .plain hquote hne hu

/-- Stray text does not end the value that it stands in. -/
theorem Stray.endsValue {w : List Char} (h : Stray w) : ∀ ch ∈ w, Clause.endsValue ch = false := by
  intro ch hch
  simp only [Clause.endsValue, decide_eq_false_iff_not]
  rintro rfl
  exact h.comma hch

/-- Stray text behind a closing quote is reported. -/
theorem afterQuoted_stray {blanks stray rest : List Char} (start : Position)
    (hblanks : AllBlank blanks) (hstray : Stray stray) (hrest : EndsSegment rest) :
    afterQuoted ⟨start, blanks ++ (stray ++ rest)⟩ =
      .error (.unexpectedAfterQuote (String.ofList (Text.trimEnd stray))
        (start.advanceBy blanks)) := by
  have htext := textUntil_append (start.advanceBy blanks) hstray.endsValue hrest.endsValue
  obtain ⟨ch, hch, hblank⟩ := hstray.head
  obtain ⟨more, rfl⟩ := List.head?_eq_some_iff.1 hch
  have hend : endsValue ch = false := hstray.endsValue ch List.mem_cons_self
  unfold afterQuoted
  rw [Cursor.skipBlanks_append start hblanks (by simpa using hblank)]
  simp only [htext]
  simp [hend]

/-- Only stray text is reported behind a closing quote. -/
theorem exists_stray_of_afterQuoted {c : Cursor} {e : SplitError} (h : afterQuoted c = .error e) :
    ∃ blanks stray rest, AllBlank blanks ∧ Stray stray ∧ EndsSegment rest ∧
      c.rest = blanks ++ (stray ++ rest) ∧
      e = .unexpectedAfterQuote (String.ofList (Text.trimEnd stray))
        (c.position.advanceBy blanks) := by
  obtain ⟨start, cs⟩ := c
  obtain ⟨blanks, more, rfl, hblanks, hhead⟩ := Text.exists_run Text.isBlank cs
  obtain ⟨stray, rest, rfl, hstray, hrest⟩ := Text.exists_run_until endsValue more
  have hend : EndsSegment rest := fun ch hch => by simpa [endsValue] using hrest ch hch
  cases stray with
  | nil =>
    rw [List.nil_append, afterQuoted_append start hblanks hend] at h
    cases h
  | cons ch stray =>
    have hstray : Stray (ch :: stray) :=
      ⟨⟨ch, rfl, hhead ch rfl⟩, fun hcomma => Bool.noConfusion (hstray ',' hcomma)⟩
    rw [afterQuoted_stray start hblanks hstray hend] at h
    exact ⟨blanks, ch :: stray, rest, hblanks, hstray, hend, rfl, (Except.error.inj h).symm⟩

/-! ### Values -/

/-- A broken value is refused with its failure. -/
theorem BrokenValue.readValue_eq {start : Position} {cs : List Char} {e : SplitError}
    (h : BrokenValue start cs e) : readValue ⟨start, cs⟩ = .error e := by
  unfold readValue
  cases h with
  | unterminated hgap hw =>
    rw [Cursor.skipBlanks_append start hgap (by simp [Text.isBlank_quote])]
    simp only [hw.readQuoted_eq]
  | unexpected hgap hw hblanks hstray hrest =>
    rw [Cursor.skipBlanks_append start hgap (by simp [Text.isBlank_quote])]
    simp only [readQuoted_append hw, afterQuoted_stray _ hblanks hstray hrest]
    simp [Position.advanceBy]

/-- Only a broken value is refused. -/
theorem brokenValue_of_readValue {start : Position} {cs : List Char} {e : SplitError}
    (h : readValue ⟨start, cs⟩ = .error e) : BrokenValue start cs e := by
  obtain ⟨gap, rest, rfl, hgap, hrest⟩ := Text.exists_run Text.isBlank cs
  unfold readValue at h
  rw [Cursor.skipBlanks_append start hgap hrest] at h
  simp only at h
  split at h
  · rename_i more
    split at h
    · rename_i hquoted
      obtain rfl := Except.error.inj h
      exact .unterminated hgap (unclosed_of_readQuoted hquoted)
    · rename_i value after hquoted
      obtain ⟨w, u, hw, rfl, -, hpos⟩ := exists_quoted_of_readQuoted hquoted
      split at h
      · rename_i e' hafter
        obtain rfl := Except.error.inj h
        obtain ⟨blanks, stray, rest, hblanks, hstray, hend, hcs, rfl⟩ :=
          exists_stray_of_afterQuoted hafter
        have hplace : after.position.advanceBy blanks =
            start.advanceBy (gap ++ '"' :: (w ++ '"' :: blanks)) := by
          simp [hpos, Position.advanceBy]
        rw [hcs, hplace]
        exact .unexpected hgap hw hblanks hstray hend
      · cases h
  · cases h

/-! ### Parameters -/

/-- A broken parameter is refused with its failure. -/
theorem BrokenParameter.readParameter_eq {start : Position} {cs : List Char} {e : SplitError}
    (h : BrokenParameter start cs e) : readParameter ⟨start, cs⟩ = .error e := by
  unfold readParameter
  cases h with
  | emptyKey => exact if_pos rfl
  | @value _ rest _ hkey hvalue =>
    have hstop : ∀ ch ∈ (':' :: rest).head?, endsKey ch = true := by
      simp [endsKey]
    rw [textUntil_append start hkey.endsKey hstop, skipUntil_append start hkey.endsKey hstop,
      if_neg hkey.trimEnd_ne_nil]
    simp only [readOptionalValue, hvalue.readValue_eq]

/-- Only a broken parameter is refused. -/
theorem brokenParameter_of_readParameter {start : Position} {cs : List Char} {e : SplitError}
    (hhead : ∃ ch ∈ cs.head?, Text.isBlank ch = false ∧ ch ≠ ',')
    (h : readParameter ⟨start, cs⟩ = .error e) : BrokenParameter start cs e := by
  obtain ⟨first, hfirst, hblank, hcomma⟩ := hhead
  obtain ⟨key, rest, rfl, hkey, hstop⟩ := Text.exists_run_until endsKey cs
  unfold readParameter at h
  rw [textUntil_append start hkey hstop, skipUntil_append start hkey hstop] at h
  simp only at h
  cases key with
  | nil =>
    -- the first character ends a name and is no comma
    obtain ⟨more, rfl⟩ := List.head?_eq_some_iff.1 hfirst
    obtain rfl : first = ':' := by
      simpa [endsKey, hcomma] using hstop first rfl
    rw [if_pos (show Text.trimEnd [] = [] from rfl)] at h
    obtain rfl := Except.error.inj h
    exact .emptyKey
  | cons ch key =>
    obtain rfl : ch = first := by simpa using hfirst
    have hkey : KeyText (ch :: key) :=
      ⟨⟨ch, rfl, hblank⟩, fun hc => Bool.noConfusion (hkey ':' hc),
        fun hc => Bool.noConfusion (hkey ',' hc)⟩
    rw [if_neg hkey.trimEnd_ne_nil] at h
    split at h
    · rename_i e' hvalue
      obtain rfl := Except.error.inj h
      unfold readOptionalValue at hvalue
      split at hvalue
      · rename_i more hmore
        obtain rfl : rest = ':' :: more := hmore
        exact .value hkey (brokenValue_of_readValue hvalue)
      · cases hvalue
    · cases h

/-! ### Clauses -/

/-- A broken parameter begins with a character that is neither blank nor a comma. -/
theorem BrokenParameter.exists_head {start : Position} {w : List Char} {e : SplitError}
    (h : BrokenParameter start w e) :
    ∃ ch more, w = ch :: more ∧ Text.isBlank ch = false ∧ ch ≠ ',' := by
  cases h with
  | emptyKey => exact ⟨':', _, rfl, Text.isBlank_colon, by decide⟩
  | value hkey _ =>
    obtain ⟨ch, hch, hblank⟩ := hkey.head
    obtain ⟨more, rfl⟩ := List.head?_eq_some_iff.1 hch
    refine ⟨ch, _, rfl, hblank, ?_⟩
    rintro rfl
    exact hkey.comma List.mem_cons_self

/-- A broken clause fails as its first broken segment does. -/
theorem Broken.splitFrom_eq {start : Position} {cs : List Char} {e : SplitError}
    (h : Broken start cs e) (read : List Parameter) : splitFrom read ⟨start, cs⟩ = .error e := by
  induction h generalizing read with
  | @here start _ _ _ hblanks hparameter =>
    obtain ⟨ch, more, rfl, hblank, hcomma⟩ := hparameter.exists_head
    have hhead : ∀ d ∈ (ch :: more).head?, Text.isBlank d = false := by
      simpa using hblank
    have hskip := Cursor.skipBlanks_append start hblanks hhead
    rw [splitFrom_of_cons read hskip hcomma, hparameter.readParameter_eq]
  | later hsegment _ ih =>
    rw [splitFrom_append hsegment (by simp [EndsSegment]) read, skipComma_cons, ih]

/-- Whatever fails is broken. -/
theorem broken_of_splitFrom {read : List Parameter} {c : Cursor} {e : SplitError}
    (h : splitFrom read c = .error e) : Broken c.position c.rest e := by
  fun_induction splitFrom read c with
  | case1 => cases h
  | case2 read c more hcomma ih =>
    obtain ⟨blanks, rest, hcs, hblanks, -, hskip⟩ := c.exists_skipBlanks
    rw [hskip] at hcomma ih h
    obtain rfl : rest = ',' :: more := hcomma
    rw [hcs]
    exact .later (.blank hblanks) (ih h)
  | case3 read c ch more hne hch e' hread =>
    obtain ⟨blanks, rest, hcs, hblanks, hhead, hskip⟩ := c.exists_skipBlanks
    rw [hskip] at hread hch
    obtain rfl : rest = ch :: more := hch
    obtain rfl := Except.error.inj h
    rw [hcs]
    exact .here hblanks (brokenParameter_of_readParameter ⟨ch, rfl, hhead ch rfl, hne⟩ hread)
  | case4 read c ch more hne hch p after hread ih =>
    obtain ⟨blanks, rest, hcs, hblanks, hhead, hskip⟩ := c.exists_skipBlanks
    rw [hskip] at hread
    obtain ⟨w, rest, key, value, hw, hrest, rfl, rfl, rfl⟩ :=
      exists_parameterText_of_readParameter hhead hread
    have hsegment : Segment c.position _ _ := .parameter hblanks hw
    rw [hcs, ← List.append_assoc]
    rcases endsSegment_iff.1 hrest with rfl | ⟨more, rfl⟩
    · rw [skipComma, splitFrom_of_nil _ rfl] at h
      cases h
    · have hbroken := ih h
      rw [skipComma_cons, ← Position.advanceBy_append] at hbroken
      exact .later hsegment hbroken

/-- **Splitting fails exactly on broken clauses**, with the failure of the first broken segment. -/
theorem splitFrom_eq_error_iff {start : Position} {cs : List Char} {e : SplitError} :
    splitFrom [] ⟨start, cs⟩ = .error e ↔ Broken start cs e :=
  ⟨broken_of_splitFrom, fun h => h.splitFrom_eq []⟩

/-! ### Clauses -/

section Clauses

variable {text : String} {ps : List Parameter} {e : SplitError}

/-- A clause of more than 65536 bytes is refused for its length. -/
theorem split_of_long (h : 65536 < text.utf8ByteSize) :
    split text = .error (.clauseTooLong text.utf8ByteSize) := by
  rw [split_of_lt (by rwa [Text.bytes_toList]), Text.bytes_toList]

/-- A clause that splits has at most 65536 bytes. -/
theorem bytes_le_of_split_eq_ok (h : split text = .ok ps) : text.utf8ByteSize ≤ 65536 := by
  by_contra hlong
  rw [split_of_long (Nat.lt_of_not_le hlong)] at h
  cases h

/-- Any other clause splits exactly if it is one of the grammar. -/
theorem split_eq_ok_iff_segments (h : text.utf8ByteSize ≤ 65536) :
    split text = .ok ps ↔ Segments .start text.toList ps := by
  rw [split_of_le (by rwa [Text.bytes_toList])]
  exact splitFrom_eq_ok_iff

/-- And it fails exactly if it is broken, with the failure of its first broken segment. -/
theorem split_eq_error_iff_broken (h : text.utf8ByteSize ≤ 65536) :
    split text = .error e ↔ Broken .start text.toList e := by
  rw [split_of_le (by rwa [Text.bytes_toList])]
  exact splitFrom_eq_error_iff

end Clauses

end Clause
end ImageCheck
