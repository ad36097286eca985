/-
# Reading the parts of a clause

Each reader of a clause against the relation of the grammar that it reads. A
reader and its relation meet in two statements: text of the grammar, followed by
what may follow it, is read as what it stands for (`readQuoted_append`,
`readValue_append`, `readParameter_append`), and whatever a reader accepts is
such a text with such a continuation (`exists_quoted_of_readQuoted`,
`exists_valueText_of_readValue`, `exists_parameterText_of_readParameter`).

Both rest on runs: `Text.exists_run` cuts a text where a class of characters ends,
and `Cursor.skipWhile_append` says that a cursor stops exactly there.
-/

import ImageCheck.Proofs.Clause.Grammar

namespace ImageCheck

/-- A text begins with a run of a class that ends where the class does. -/
theorem Text.exists_run (p : Char → Bool) (cs : List Char) :
    ∃ w rest, cs = w ++ rest ∧ (∀ ch ∈ w, p ch = true) ∧ ∀ ch ∈ rest.head?, p ch = false := by
  refine ⟨cs.takeWhile p, cs.dropWhile p, List.takeWhile_append_dropWhile.symm,
    fun ch hch => List.mem_takeWhile_imp hch, fun ch hch => ?_⟩
  have h := List.head?_dropWhile_not p cs
  rw [Option.mem_def.1 hch] at h
  simpa using h

/-- A text begins with a run outside a class that ends where the class begins. -/
theorem Text.exists_run_until (stop : Char → Bool) (cs : List Char) :
    ∃ w rest, cs = w ++ rest ∧ (∀ ch ∈ w, stop ch = false) ∧ ∀ ch ∈ rest.head?, stop ch = true := by
  simpa using Text.exists_run (fun ch => !stop ch) cs

namespace Cursor

/-- A cursor before a run of a class that ends there moves past the run. -/
theorem skipWhile_append {p : Char → Bool} {w rest : List Char} (start : Position)
    (hw : ∀ ch ∈ w, p ch = true) (hrest : ∀ ch ∈ rest.head?, p ch = false) :
    (⟨start, w ++ rest⟩ : Cursor).skipWhile p = ⟨start.advanceBy w, rest⟩ := by
  have htake : rest.takeWhile p = [] := by
    cases rest with
    | nil => rfl
    | cons ch more => simp [hrest ch rfl]
  have hdrop : rest.dropWhile p = rest := by
    cases rest with
    | nil => rfl
    | cons ch more => simp [hrest ch rfl]
  rw [skipWhile, List.takeWhile_append_of_pos hw, List.dropWhile_append_of_pos hw, htake, hdrop,
    List.append_nil]

/-- Blanks are skipped up to the first character that is not blank. -/
theorem skipBlanks_append {w rest : List Char} (start : Position) (hw : Clause.AllBlank w)
    (hrest : ∀ ch ∈ rest.head?, Text.isBlank ch = false) :
    (⟨start, w ++ rest⟩ : Cursor).skipBlanks = ⟨start.advanceBy w, rest⟩ :=
  skipWhile_append start hw hrest

/-- A cursor skips a run of blanks and stops before a character that is none. -/
theorem exists_skipBlanks (c : Cursor) :
    ∃ blanks rest, c.rest = blanks ++ rest ∧ Clause.AllBlank blanks ∧
      (∀ ch ∈ rest.head?, Text.isBlank ch = false) ∧
      c.skipBlanks = ⟨c.position.advanceBy blanks, rest⟩ := by
  obtain ⟨start, cs⟩ := c
  obtain ⟨blanks, rest, rfl, hblanks, hrest⟩ := Text.exists_run Text.isBlank cs
  exact ⟨blanks, rest, rfl, hblanks, hrest, skipBlanks_append start hblanks hrest⟩

end Cursor

namespace Clause

/-- The text up to a class of characters is a run outside the class, right-trimmed. -/
theorem textUntil_append {stop : Char → Bool} {w rest : List Char} (start : Position)
    (hw : ∀ ch ∈ w, stop ch = false) (hrest : ∀ ch ∈ rest.head?, stop ch = true) :
    textUntil stop ⟨start, w ++ rest⟩ = Text.trimEnd w := by
  have htake : rest.takeWhile (fun ch => !stop ch) = [] := by
    cases rest with
    | nil => rfl
    | cons ch more => simp [hrest ch rfl]
  rw [textUntil, List.takeWhile_append_of_pos (by simpa using hw), htake, List.append_nil]

/-- Characters that are no stop are skipped up to the first that is one. -/
theorem skipUntil_append {stop : Char → Bool} {w rest : List Char} (start : Position)
    (hw : ∀ ch ∈ w, stop ch = false) (hrest : ∀ ch ∈ rest.head?, stop ch = true) :
    skipUntil stop ⟨start, w ++ rest⟩ = ⟨start.advanceBy w, rest⟩ :=
  Cursor.skipWhile_append start (by simpa using hw) (by simpa using hrest)

/-! ### Quoted values -/

/-- Quoted text is read as what it stands for, whatever follows it. -/
theorem readQuoted_quoted {w v : List Char} (h : Quoted w v) (value : List Char) (start : Position)
    (rest : List Char) :
    readQuoted value start (w ++ rest) =
      readQuoted (v.reverse ++ value) (start.advanceBy w) rest := by
  induction h generalizing value start with
  | nil => rfl
  | plain hquote hslash _ ih =>
    rw [List.cons_append, readQuoted]
    · rw [ih]
      simp [Position.advanceBy]
    all_goals simp_all
  | quote _ ih =>
    rw [List.cons_append, List.cons_append, readQuoted, if_pos (.inl rfl), ih]
    simp [Position.advanceBy]
  | backslash _ ih =>
    rw [List.cons_append, List.cons_append, readQuoted, if_pos (.inr rfl), ih]
    simp [Position.advanceBy]
  | other hquote hslash _ ih =>
    rw [List.cons_append, List.cons_append, readQuoted, if_neg (not_or.2 ⟨hquote, hslash⟩), ih]
    simp [Position.advanceBy]

/-- What stands between quotes is read up to the quote that closes it. -/
theorem readQuoted_append {w v : List Char} (h : Quoted w v) (value : List Char) (start : Position)
    (rest : List Char) :
    readQuoted value start (w ++ '"' :: rest) =
      some (value.reverse ++ v, ⟨(start.advanceBy w).advance '"', rest⟩) := by
  rw [readQuoted_quoted h, readQuoted]
  simp

/-- Whatever is read between quotes is quoted text, closed by the first quote not escaped. -/
theorem exists_quoted_of_readQuoted {value : List Char} {start : Position} {cs v : List Char}
    {c : Cursor} (h : readQuoted value start cs = some (v, c)) :
    ∃ w u, Quoted w u ∧ cs = w ++ '"' :: c.rest ∧ v = value.reverse ++ u ∧
      c.position = (start.advanceBy w).advance '"' := by
  fun_induction readQuoted value start cs with
  | case1 => cases h
  | case2 start value rest =>
    obtain ⟨rfl, rfl⟩ := Prod.mk.inj (Option.some.inj h)
    exact ⟨[], [], .nil, rfl, by simp, rfl⟩
  | case3 => cases h
  | case4 value start ch rest q hch ih =>
    obtain ⟨w, u, hw, rfl, rfl, hpos⟩ := ih h
    rcases hch with rfl | rfl
    · exact ⟨_, '"' :: u, .quote hw, rfl, by simp, hpos⟩
    · exact ⟨_, '\\' :: u, .backslash hw, rfl, by simp, hpos⟩
  | case5 value start ch rest q hch ih =>
    obtain ⟨w, u, hw, rfl, rfl, hpos⟩ := ih h
    obtain ⟨hquote, hslash⟩ := not_or.1 hch
    exact ⟨_, '\\' :: ch :: u, .other hquote hslash hw, rfl, by simp, hpos⟩
  | case6 value start ch rest hquote hlast hslash ih =>
    obtain ⟨w, u, hw, rfl, rfl, hpos⟩ := ih h
    -- a backslash has a case of its own, at the end of the text and before another character
    have hne : ch ≠ '\\' := by
      intro hch
      cases hcs : w ++ '"' :: c.rest with
      | nil => exact hlast hch hcs
      | cons d more => exact hslash d more hch hcs
    exact ⟨_, ch :: u, .plain hquote hne hw, rfl, by simp, hpos⟩

/-- Only blanks may follow a closing quote. -/
theorem afterQuoted_append {blanks rest : List Char} (start : Position) (hblanks : AllBlank blanks)
    (hrest : EndsSegment rest) :
    afterQuoted ⟨start, blanks ++ rest⟩ = .ok ⟨start.advanceBy blanks, rest⟩ := by
  unfold afterQuoted
  rw [Cursor.skipBlanks_append start hblanks hrest.not_isBlank]
  rcases endsSegment_iff.1 hrest with rfl | ⟨more, rfl⟩
  · rfl
  · rfl

/-- Behind a closing quote only blanks are passed, up to the end of the segment. -/
theorem exists_blanks_of_afterQuoted {c d : Cursor} (h : afterQuoted c = .ok d) :
    ∃ blanks, AllBlank blanks ∧ EndsSegment d.rest ∧ c.rest = blanks ++ d.rest ∧
      d.position = c.position.advanceBy blanks := by
  obtain ⟨start, cs⟩ := c
  obtain ⟨blanks, rest, rfl, hblanks, hrest⟩ := Text.exists_run Text.isBlank cs
  unfold afterQuoted at h
  rw [Cursor.skipBlanks_append start hblanks hrest] at h
  cases rest with
  | nil =>
    obtain rfl := Except.ok.inj h
    exact ⟨blanks, hblanks, by simp [EndsSegment], rfl, rfl⟩
  | cons ch more =>
    simp only at h
    split at h
    · rename_i hch
      obtain rfl := Except.ok.inj h
      exact ⟨blanks, hblanks, by simpa [EndsSegment, endsValue] using hch, rfl, rfl⟩
    · cases h

/-! ### Values -/

/-- A value of the grammar is read, up to the end of its segment. -/
theorem readValue_append {gap w v rest : List Char} (start : Position) (hgap : AllBlank gap)
    (h : ValueText w v) (hrest : EndsSegment rest) :
    readValue ⟨start, gap ++ (w ++ rest)⟩ = .ok (v, ⟨start.advanceBy (gap ++ w), rest⟩) := by
  unfold readValue
  cases h with
  | unquoted hcomma hhead =>
    -- an empty value is followed by what ends the segment, which is no quote either
    have hplain : ∀ ch ∈ (w ++ rest).head?, Text.isBlank ch = false ∧ ch ≠ '"' := by
      cases w with
      | nil =>
        intro ch hch
        rw [hrest ch hch]
        decide
      | cons ch w => exact hhead
    have hw : ∀ ch ∈ w, endsValue ch = false := by
      intro ch hch
      simp only [endsValue, decide_eq_false_iff_not]
      rintro rfl
      exact hcomma hch
    rw [Cursor.skipBlanks_append start hgap fun ch hch => (hplain ch hch).1]
    simp only
    split
    · rename_i more hmore
      exact absurd rfl (hplain '"' (by simp [hmore])).2
    · rw [textUntil_append _ hw hrest.endsValue, skipUntil_append _ hw hrest.endsValue,
        Position.advanceBy_append]
  | @quoted w _ blanks hquoted hblanks =>
    have hquote : ∀ ch ∈ ('"' :: (w ++ '"' :: blanks) ++ rest).head?, Text.isBlank ch = false := by
      simp [Text.isBlank_quote]
    rw [Cursor.skipBlanks_append start hgap hquote]
    simp only [List.cons_append, List.append_assoc]
    rw [readQuoted_append hquoted]
    simp only
    rw [afterQuoted_append _ hblanks hrest]
    simp [Position.advanceBy]

/-- Whatever is read as a value is one of the grammar. -/
theorem exists_valueText_of_readValue {c d : Cursor} {v : List Char}
    (h : readValue c = .ok (v, d)) :
    ∃ gap w, AllBlank gap ∧ ValueText w v ∧ EndsSegment d.rest ∧
      c.rest = gap ++ (w ++ d.rest) ∧ d.position = c.position.advanceBy (gap ++ w) := by
  obtain ⟨start, cs⟩ := c
  obtain ⟨gap, rest, rfl, hgap, hrest⟩ := Text.exists_run Text.isBlank cs
  unfold readValue at h
  rw [Cursor.skipBlanks_append start hgap hrest] at h
  simp only at h
  split at h
  · rename_i more
    split at h
    · cases h
    · rename_i value after hquoted
      split at h
      · cases h
      · rename_i d' hafter
        obtain ⟨rfl, rfl⟩ := Prod.mk.inj (Except.ok.inj h)
        obtain ⟨w, u, hw, rfl, rfl, hpos⟩ := exists_quoted_of_readQuoted hquoted
        obtain ⟨blanks, hblanks, hend, hcs, hpos'⟩ := exists_blanks_of_afterQuoted hafter
        refine ⟨gap, _, hgap, .quoted hw hblanks, hend, ?_, ?_⟩
        · simp [hcs]
        · simp [hpos', hpos, Position.advanceBy]
  · rename_i hnot
    obtain ⟨rfl, rfl⟩ := Prod.mk.inj (Except.ok.inj h)
    obtain ⟨w, rest, rfl, hw, hstop⟩ := Text.exists_run_until endsValue rest
    rw [textUntil_append _ hw hstop, skipUntil_append _ hw hstop]
    refine ⟨gap, w, hgap, .unquoted ?_ ?_, ?_, rfl, (Position.advanceBy_append ..).symm⟩
    · intro hcomma
      exact Bool.noConfusion (hw ',' hcomma)
    · intro ch hch
      obtain ⟨more, rfl⟩ := List.head?_eq_some_iff.1 hch
      refine ⟨hrest ch rfl, ?_⟩
      rintro rfl
      exact hnot _ rfl
    · intro ch hch
      simpa [endsValue] using hstop ch hch

/-! ### Parameters -/

/-- A parameter of the grammar is read, with the comma that ends its segment. -/
theorem readParameter_append {w key value rest : List Char} (start : Position)
    (h : ParameterText w key value) (hrest : EndsSegment rest) :
    readParameter ⟨start, w ++ rest⟩ =
      .ok (⟨String.ofList key, String.ofList value, start⟩,
        skipComma ⟨start.advanceBy w, rest⟩) := by
  unfold readParameter
  cases h with
  | flag hkey =>
    have hstop : ∀ ch ∈ rest.head?, endsKey ch = true := by
      intro ch hch
      rw [hrest ch hch]
      rfl
    rw [textUntil_append start hkey.endsKey hstop, skipUntil_append start hkey.endsKey hstop,
      if_neg hkey.trimEnd_ne_nil]
    rcases endsSegment_iff.1 hrest with rfl | ⟨more, rfl⟩
    · rfl
    · rfl
  | @pair _ gap w _ hkey hgap hvalue =>
    have hstop : ∀ ch ∈ (':' :: (gap ++ w) ++ rest).head?, endsKey ch = true := by
      simp [endsKey]
    rw [List.append_assoc, textUntil_append start hkey.endsKey hstop,
      skipUntil_append start hkey.endsKey hstop, if_neg hkey.trimEnd_ne_nil]
    simp only [readOptionalValue, List.cons_append, List.append_assoc]
    rw [readValue_append _ hgap hvalue hrest]
    simp [Position.advanceBy]

/-- Whatever is read as a parameter is one of the grammar. -/
theorem exists_parameterText_of_readParameter {start : Position} {cs : List Char} {p : Parameter}
    {d : Cursor} (hhead : ∀ ch ∈ cs.head?, Text.isBlank ch = false)
    (h : readParameter ⟨start, cs⟩ = .ok (p, d)) :
    ∃ w rest key value, ParameterText w key value ∧ EndsSegment rest ∧ cs = w ++ rest ∧
      p = ⟨String.ofList key, String.ofList value, start⟩ ∧
      d = skipComma ⟨start.advanceBy w, rest⟩ := by
  obtain ⟨keytext, rest, rfl, hw, hstop⟩ := Text.exists_run_until endsKey cs
  unfold readParameter at h
  rw [textUntil_append start hw hstop, skipUntil_append start hw hstop] at h
  simp only at h
  split at h
  · cases h
  · rename_i hne
    have hkey : KeyText keytext := by
      cases keytext with
      | nil => exact absurd rfl hne
      | cons ch more =>
        exact ⟨⟨ch, rfl, hhead ch rfl⟩, fun hc => Bool.noConfusion (hw ':' hc),
          fun hc => Bool.noConfusion (hw ',' hc)⟩
    split at h
    · cases h
    · rename_i value after hvalue
      obtain ⟨rfl, rfl⟩ := Prod.mk.inj (Except.ok.inj h)
      unfold readOptionalValue at hvalue
      split at hvalue
      · rename_i more hmore
        obtain rfl : rest = ':' :: more := hmore
        obtain ⟨gap, w, hgap, hw, hend, hcs, hpos⟩ := exists_valueText_of_readValue hvalue
        obtain rfl : more = gap ++ (w ++ after.rest) := hcs
        refine ⟨_, after.rest, _, value, .pair hkey hgap hw, hend, by simp, rfl, ?_⟩
        obtain ⟨position, rest⟩ := after
        simp_all [Position.advanceBy]
      · rename_i hcolon
        obtain ⟨rfl, rfl⟩ := Prod.mk.inj (Except.ok.inj hvalue)
        refine ⟨_, rest, _, [], .flag hkey, fun ch hch => ?_, rfl, rfl, rfl⟩
        obtain ⟨more, rfl⟩ := List.head?_eq_some_iff.1 hch
        have hend := hstop ch rfl
        simp only [endsKey, Bool.or_eq_true, decide_eq_true_eq] at hend
        rcases hend with rfl | rfl
        · exact absurd rfl (hcolon more)
        · rfl

end Clause
end ImageCheck
