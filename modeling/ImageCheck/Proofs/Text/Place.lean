/-
# Places in a text

A cursor moves over characters of a text and stops behind them: `Cursor.Passes`. A
cursor that stands in the text keeps standing in it, and the characters it passed are
what the two offsets cut out of the text (`StandsIn.slice`). So offsets that were
reached by reading never fall inside a character, whatever the bytes of the
characters are.

`Found` says that some characters stand at a position of a text. A failure that quotes
a part of the text has found it there.
-/

import ImageCheck.Proofs.Value.Reader

namespace ImageCheck

namespace Text

/-- Every character has at least one byte. -/
theorem length_le_bytes (cs : List Char) : cs.length ≤ bytes cs := by
  induction cs with
  | nil => exact Nat.le_refl _
  | cons c cs ih =>
    have hc := c.utf8Size_pos
    simp only [bytes, List.length_cons, List.foldr_cons] at ih ⊢
    omega

/-- No character has more than four bytes. -/
theorem bytes_le (cs : List Char) : bytes cs ≤ 4 * cs.length := by
  induction cs with
  | nil => exact Nat.le_refl _
  | cons c cs ih =>
    have hc := c.utf8Size_le_four
    simp only [bytes, List.length_cons, List.foldr_cons] at ih ⊢
    omega

/-- Trimming the end leaves a beginning of the text. -/
theorem trimEnd_prefix_self (cs : List Char) : trimEnd cs <+: cs := by
  have hsuffix := List.dropWhile_suffix isBlank (l := cs.reverse)
  rw [← List.reverse_prefix, List.reverse_reverse] at hsuffix
  exact hsuffix

/-- Trimming takes blanks off the end, and leaves none there. -/
theorem exists_blanks_trimEnd (cs : List Char) :
    ∃ blanks, cs = trimEnd cs ++ blanks ∧ (∀ ch ∈ blanks, isBlank ch = true) ∧
      ∀ ch ∈ (trimEnd cs).getLast?, isBlank ch = false := by
  refine ⟨(cs.reverse.takeWhile isBlank).reverse, ?_, fun ch hch => ?_, fun ch hch => ?_⟩
  · rw [trimEnd, ← List.reverse_append, List.takeWhile_append_dropWhile, List.reverse_reverse]
  · exact List.mem_takeWhile_imp (List.mem_reverse.1 hch)
  · have hnot := List.head?_dropWhile_not isBlank cs.reverse
    rw [trimEnd, List.getLast?_reverse] at hch
    rw [Option.mem_def.1 hch] at hnot
    simpa using hnot

/-- A text is taken apart at the offset between two parts. -/
theorem splitAtByte_append (before cs rest : List Char) :
    splitAtByte before (bytes cs) (cs ++ rest) = some (before.reverse ++ cs, rest) := by
  induction cs generalizing before with
  | nil => simp [bytes, splitAtByte]
  | cons c cs ih =>
    obtain ⟨n, hn⟩ : ∃ n, bytes (c :: cs) = n + 1 :=
      Nat.exists_eq_succ_of_ne_zero (bytes_pos (List.cons_ne_nil c cs)).ne'
    have hbytes : bytes (c :: cs) = c.utf8Size + bytes cs := rfl
    have hleft : n + 1 - c.utf8Size = bytes cs := by omega
    rw [hn, List.cons_append, splitAtByte, if_pos (by omega), hleft, ih]
    simp

end Text

/-- A span of a text is cut out of it. -/
theorem Span.slice_append (before covered after : List Char) :
    (covering (Position.start.advanceBy before) covered).slice (before ++ (covered ++ after)) =
      some covered := by
  have horder : (covering (Position.start.advanceBy before) covered).start.offset ≤
      (covering (Position.start.advanceBy before) covered).stop.offset :=
    Position.offset_le_advanceBy _ _
  have hstart : (covering (Position.start.advanceBy before) covered).start.offset =
      Text.bytes before := by
    simp [covering, Position.advanceBy_eq, Position.start]
  have hsize : (covering (Position.start.advanceBy before) covered).size = Text.bytes covered := by
    simp [covering, size, Position.advanceBy_eq]
  rw [slice, if_pos horder, hsize, hstart, Text.splitAtByte_append]
  simp [Text.splitAtByte_append]

namespace Cursor

/-- From `c` over the characters `w` to `d`. -/
structure Passes (c : Cursor) (w : List Char) (d : Cursor) : Prop where
  /-- The characters follow `c`, and what follows them follows `d`. -/
  rest : c.rest = w ++ d.rest
  /-- `d` stands behind them. -/
  position : d.position = c.position.advanceBy w

/-- A cursor that stays where it is has passed nothing. -/
theorem Passes.refl (c : Cursor) : c.Passes [] c := ⟨rfl, rfl⟩

/-- What a cursor passes in two moves is what it passes in the first and then in the second. -/
theorem Passes.trans {c d e : Cursor} {v w : List Char} (h : c.Passes v d) (h' : d.Passes w e) :
    c.Passes (v ++ w) e :=
  ⟨by rw [h.rest, h'.rest, List.append_assoc],
    by rw [h'.position, h.position, Position.advanceBy_append]⟩

/-- A cursor passes the next character. -/
theorem passes_cons {c : Cursor} {ch : Char} {rest : List Char} (h : c.rest = ch :: rest) :
    c.Passes [ch] ⟨c.position.advance ch, rest⟩ := ⟨h, rfl⟩

/-- A cursor passes any beginning of what it has left. -/
theorem passes_append (p : Position) (w rest : List Char) :
    (⟨p, w ++ rest⟩ : Cursor).Passes w ⟨p.advanceBy w, rest⟩ := ⟨rfl, rfl⟩

/-- Skipping a class of characters passes the run of them. -/
theorem passes_skipWhile (c : Cursor) (p : Char → Bool) :
    c.Passes (c.rest.takeWhile p) (c.skipWhile p) :=
  ⟨List.takeWhile_append_dropWhile.symm, rfl⟩

section Standing

variable {source : String} {c d : Cursor} {w : List Char}

/-- **A cursor that passes characters of the text keeps standing in it.** -/
theorem StandsIn.passes (h : StandsIn source c) (hpass : c.Passes w d) : StandsIn source d := by
  obtain ⟨before, hsource, hposition⟩ := standsIn_iff.1 h
  refine standsIn_iff.2 ⟨before ++ w, ?_, ?_⟩
  · rw [hsource, hpass.rest, List.append_assoc]
  · rw [hpass.position, hposition, Position.advanceBy_append]

/-- It keeps standing in the text when it passes one character. -/
theorem StandsIn.advance (h : StandsIn source c) {ch : Char} {rest : List Char}
    (hrest : c.rest = ch :: rest) : StandsIn source ⟨c.position.advance ch, rest⟩ :=
  h.passes (passes_cons hrest)

/-- It does when it skips blanks. -/
theorem StandsIn.skipBlanks (h : StandsIn source c) : StandsIn source c.skipBlanks :=
  h.skipWhile _

/-- It does when it passes a token. -/
theorem StandsIn.afterToken (h : StandsIn source c) : StandsIn source c.afterToken :=
  h.skipBlanks.skipWhile _

/-- **What a cursor passed is cut out by its two offsets.** -/
theorem StandsIn.slice (h : StandsIn source c) (hpass : c.Passes w d) :
    (Span.mk c.position d.position).slice source.toList = some w := by
  obtain ⟨before, hsource, hposition⟩ := standsIn_iff.1 h
  rw [hsource, hpass.rest, hpass.position, hposition]
  exact Span.slice_append before w d.rest

/-- All that is left is passed at the end. -/
theorem StandsIn.passes_rest (h : StandsIn source c) :
    c.Passes c.rest ⟨.endOf source, []⟩ := by
  obtain ⟨before, hsource, hposition⟩ := standsIn_iff.1 h
  refine ⟨(List.append_nil _).symm, ?_⟩
  rw [hposition, ← Position.advanceBy_append, ← hsource, Position.advanceBy_toList]

/-- The column and the characters left add up to the length of the text. -/
theorem StandsIn.column_add_length (h : StandsIn source c) :
    c.position.column + c.rest.length = 1 + source.length := by
  obtain ⟨before, rest, rfl, -, hcolumn, hrest⟩ := h
  rw [hcolumn, hrest, String.length_append, String.length_toList]
  omega

/-- Of two cursors in a text the one with less to read stands further on. -/
theorem StandsIn.column_lt (hc : StandsIn source c) (hd : StandsIn source d)
    (h : d.rest.length < c.rest.length) : c.position.column < d.position.column := by
  have hcolumn := hc.column_add_length
  have hcolumn' := hd.column_add_length
  omega

/-- The offset is bounded by the length of the text, at four bytes a character. -/
theorem StandsIn.offset_le (h : StandsIn source c) : c.position.offset ≤ 4 * source.length := by
  obtain ⟨before, rest, rfl, hoffset, -, -⟩ := h
  have hbytes := Text.bytes_le before.toList
  rw [Text.bytes_toList, String.length_toList] at hbytes
  rw [hoffset, String.length_append]
  omega

end Standing

/-- Skipping a class skips a smaller one first. -/
theorem skipWhile_skipWhile {p q : Char → Bool} (h : ∀ ch, p ch = true → q ch = true)
    (c : Cursor) : (c.skipWhile p).skipWhile q = c.skipWhile q := by
  obtain ⟨start, cs⟩ := c
  obtain ⟨w, rest, rfl, hw, hrest⟩ := Text.exists_run p cs
  rw [skipWhile_append start hw hrest]
  have hq : ∀ ch ∈ w, q ch = true := fun ch hch => h ch (hw ch hch)
  simp [skipWhile, List.takeWhile_append_of_pos hq, List.dropWhile_append_of_pos hq,
    Position.advanceBy_append]

/-- Skipping a class goes over a character of the class. -/
theorem skipWhile_cons {p : Char → Bool} {ch : Char} (h : p ch = true) (start : Position)
    (rest : List Char) :
    (⟨start, ch :: rest⟩ : Cursor).skipWhile p =
      (⟨start.advance ch, rest⟩ : Cursor).skipWhile p := by
  simp [skipWhile, h, Position.advanceBy]

/-- Skipping a class stops before a character outside it. -/
theorem head_skipWhile (p : Char → Bool) (c : Cursor) :
    ∀ ch ∈ (c.skipWhile p).rest.head?, p ch = false := by
  obtain ⟨start, cs⟩ := c
  obtain ⟨w, rest, rfl, hw, hrest⟩ := Text.exists_run p cs
  rwa [skipWhile_append start hw hrest]

/-- Skipping blanks stops before a character that is not blank. -/
theorem head_skipBlanks (c : Cursor) : ∀ ch ∈ c.skipBlanks.rest.head?, Text.isBlank ch = false :=
  c.head_skipWhile Text.isBlank

/-- A cursor stays before the end, and before a character outside the class. -/
theorem skipWhile_eq_self {p : Char → Bool} {c : Cursor} (h : ∀ ch ∈ c.rest.head?, p ch = false) :
    c.skipWhile p = c :=
  skipWhile_append c.position (fun _ hch => absurd hch List.not_mem_nil) h

end Cursor

/-- The characters `cs` stand at the position `p` of a text. -/
def Found (source : String) (cs : List Char) (p : Position) : Prop :=
  ∃ rest, Cursor.StandsIn source ⟨p, cs ++ rest⟩

/-- What a cursor has before it stands at its place in the text. -/
theorem Cursor.StandsIn.found {source : String} {c : Cursor} (h : StandsIn source c)
    {cs : List Char} (hcs : cs <+: c.rest) : Found source cs c.position := by
  obtain ⟨rest, hrest⟩ := hcs
  refine ⟨rest, ?_⟩
  rwa [hrest]

/-- What is found at a place is cut out by its span. -/
theorem Found.slice {source : String} {cs : List Char} {p : Position} (h : Found source cs p) :
    (Span.covering p cs).slice source.toList = some cs := by
  obtain ⟨rest, hstands⟩ := h
  exact hstands.slice (Cursor.passes_append p cs rest)

/-- The middle part of a text is found behind the first. -/
theorem found_of_eq_append {source : String} {before cs after : List Char}
    (h : source.toList = before ++ (cs ++ after)) :
    Found source cs (Position.start.advanceBy before) :=
  ⟨after, Cursor.standsIn_iff.2 ⟨before, h, rfl⟩⟩

/-- A run is found where it begins. -/
theorem IsRun.found {source : String} {t : Token} (h : IsRun .start source.toList t) :
    Found source t.text t.start := by
  obtain ⟨htext, -, -, -, -⟩ := h
  exact found_of_eq_append htext

/-- What is found in a text ends within its columns. -/
theorem Found.column_add_length_le {source : String} {cs : List Char} {p : Position}
    (h : Found source cs p) : p.column + cs.length ≤ 1 + source.length := by
  obtain ⟨rest, hstands⟩ := h
  have hcolumn := hstands.column_add_length
  simp only [List.length_append] at hcolumn
  omega

/-- The span of a text that stands in another ends within that one. -/
theorem Found.stop_column_le {source : String} {cs : List Char} {p : Position}
    (h : Found source cs p) : (Span.covering p cs).stop.column ≤ 1 + source.length := by
  rw [Span.covering, Position.advanceBy_eq]
  exact h.column_add_length_le

end ImageCheck
