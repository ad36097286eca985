/-
# Splitting follows the grammar

`SPEC_FULL` §4.6; the loop of `split_parameters`.

`split` accepts a clause exactly when the grammar does, and its result is the one
the grammar gives: `split_eq_ok_iff`. As a function has one result, no clause has
two readings, however commas, colons and quotes are mixed in it.

`splitFrom_of_nil`, `splitFrom_of_comma` and `splitFrom_of_cons` are the three cases of the
loop, `splitFrom_append` its step: a segment followed by a comma or by nothing is passed,
and its parameter kept. `Segments.splitFrom_eq` goes on with it to the end of the clause,
and `exists_segments_of_splitFrom` is the way back.
-/

import ImageCheck.Proofs.Clause.Reading

namespace ImageCheck

/-- The bytes of a text, counted by character and in its encoding. -/
theorem Text.bytes_toList (text : String) : Text.bytes text.toList = text.utf8ByteSize := by
  have hlist (cs : List Char) : Text.bytes cs = (String.ofList cs).utf8ByteSize := by
    induction cs with
    | nil => rfl
    | cons ch cs ih =>
      rw [← List.singleton_append, String.ofList_append, String.utf8ByteSize_append, ← ih,
        ← String.singleton_eq_ofList, String.utf8ByteSize_singleton]
      rfl
  rw [hlist, String.ofList_toList]

namespace Clause

theorem skipComma_cons (start : Position) (more : List Char) :
    skipComma ⟨start, ',' :: more⟩ = ⟨start.advance ',', more⟩ := rfl

section Step

variable (read : List Parameter) {c : Cursor} {start : Position} {more : List Char}

/-- At the end of the clause the loop is done. -/
theorem splitFrom_of_nil (h : c.skipBlanks = ⟨start, []⟩) :
    splitFrom read c = .ok read.reverse := by
  rw [splitFrom]
  split <;> simp_all

/-- An empty segment before a comma is passed. -/
theorem splitFrom_of_comma (h : c.skipBlanks = ⟨start, ',' :: more⟩) :
    splitFrom read c = splitFrom read ⟨start.advance ',', more⟩ := by
  rw [splitFrom]
  split
  · simp_all
  · simp_all
  · rename_i ch tail hne hrest
    rw [h] at hrest
    exact absurd (List.cons.inj hrest).1.symm hne

/-- What the loop does before a character that is neither blank nor a comma: it reads a parameter,
and goes on behind it or fails as it does. -/
theorem splitFrom_of_cons {ch : Char} (h : c.skipBlanks = ⟨start, ch :: more⟩) (hch : ch ≠ ',') :
    splitFrom read c =
      match readParameter ⟨start, ch :: more⟩ with
      | .error e => .error e
      | .ok (p, after) => splitFrom (p :: read) after := by
  rw [splitFrom]
  split
  · simp_all
  · simp_all
  · split <;> simp_all

end Step

/-- A segment is passed, and its parameter kept. -/
theorem splitFrom_append {start : Position} {w rest : List Char} {p : Option Parameter}
    (h : Segment start w p) (hrest : EndsSegment rest) (read : List Parameter) :
    splitFrom read ⟨start, w ++ rest⟩ =
      splitFrom (p.toList ++ read) (skipComma ⟨start.advanceBy w, rest⟩) := by
  cases h with
  | blank hblank =>
    have hskip := Cursor.skipBlanks_append start hblank hrest.not_isBlank
    rcases endsSegment_iff.1 hrest with rfl | ⟨more, rfl⟩
    · rw [splitFrom_of_nil read hskip]
      exact (splitFrom_of_nil read rfl).symm
    · exact splitFrom_of_comma read hskip
  | parameter hblanks hparameter =>
    obtain ⟨ch, more, rfl, hblank, hcomma⟩ := hparameter.exists_head
    have hhead : ∀ d ∈ (ch :: more ++ rest).head?, Text.isBlank d = false := by
      simpa using hblank
    have hskip := Cursor.skipBlanks_append start hblanks hhead
    rw [List.append_assoc, Position.advanceBy_append]
    rw [List.cons_append] at hskip ⊢
    rw [splitFrom_of_cons read hskip hcomma, ← List.cons_append,
      readParameter_append _ hparameter hrest]
    rfl

/-- A clause of the grammar is split into its parameters. -/
theorem Segments.splitFrom_eq {start : Position} {w : List Char} {ps : List Parameter}
    (h : Segments start w ps) (read : List Parameter) :
    splitFrom read ⟨start, w⟩ = .ok (read.reverse ++ ps) := by
  induction h generalizing read with
  | @last _ w p h =>
    rw [← List.append_nil w, splitFrom_append h (by simp [EndsSegment]) read, skipComma,
      splitFrom_of_nil _ rfl]
    cases p <;> simp
  | @cons _ _ _ p _ h _ ih =>
    rw [splitFrom_append h (by simp [EndsSegment]) read, skipComma_cons, ih]
    cases p <;> simp

/-- Whatever is split is a clause of the grammar. -/
theorem exists_segments_of_splitFrom {read : List Parameter} {c : Cursor} {ps : List Parameter}
    (h : splitFrom read c = .ok ps) :
    ∃ qs, ps = read.reverse ++ qs ∧ Segments c.position c.rest qs := by
  fun_induction splitFrom read c with
  | case1 read c hnil =>
    obtain ⟨blanks, rest, hcs, hblanks, -, hskip⟩ := c.exists_skipBlanks
    rw [hskip] at hnil
    obtain rfl : rest = [] := hnil
    rw [hcs, List.append_nil]
    exact ⟨[], by simp [Except.ok.inj h], .last (.blank hblanks)⟩
  | case2 read c more hcomma ih =>
    obtain ⟨blanks, rest, hcs, hblanks, -, hskip⟩ := c.exists_skipBlanks
    rw [hskip] at hcomma ih h
    obtain rfl : rest = ',' :: more := hcomma
    obtain ⟨qs, rfl, hqs⟩ := ih h
    rw [hcs]
    exact ⟨qs, rfl, .cons (.blank hblanks) hqs⟩
  | case3 => cases h
  | case4 read c ch more hne hch p after hread ih =>
    obtain ⟨blanks, rest, hcs, hblanks, hhead, hskip⟩ := c.exists_skipBlanks
    rw [hskip] at hread
    obtain ⟨w, rest, key, value, hw, hrest, rfl, rfl, rfl⟩ :=
      exists_parameterText_of_readParameter hhead hread
    have hsegment : Segment c.position _ _ := .parameter hblanks hw
    -- at the end of the clause this segment is the last, even where the loop goes round once more
    rw [hcs, ← List.append_assoc]
    rcases endsSegment_iff.1 hrest with rfl | ⟨more, rfl⟩
    · rw [skipComma, splitFrom_of_nil _ rfl] at h
      rw [List.append_nil]
      exact ⟨_, by simp [← Except.ok.inj h], .last hsegment⟩
    · obtain ⟨qs, rfl, hqs⟩ := ih h
      rw [skipComma_cons, ← Position.advanceBy_append] at hqs
      exact ⟨_, by simp, .cons hsegment hqs⟩

/-- A clause splits exactly if it is one of the grammar, from any place on. -/
theorem splitFrom_eq_ok_iff {start : Position} {cs : List Char} {ps : List Parameter} :
    splitFrom [] ⟨start, cs⟩ = .ok ps ↔ Segments start cs ps := by
  constructor
  · intro h
    obtain ⟨qs, rfl, hqs⟩ := exists_segments_of_splitFrom h
    exact hqs
  · intro h
    exact h.splitFrom_eq []

/-- A clause within the bound is gone through from its start. -/
theorem split_of_le {text : String} (h : Text.bytes text.toList ≤ 65536) :
    split text = splitFrom [] ⟨.start, text.toList⟩ := by
  rw [split, if_neg (show ¬ maxClauseBytes < _ from Nat.not_lt.2 h)]
  rfl

/-- A clause beyond the bound is not gone through. -/
theorem split_of_lt {text : String} (h : 65536 < Text.bytes text.toList) :
    split text = .error (.clauseTooLong (Text.bytes text.toList)) := by
  rw [split, if_pos (show maxClauseBytes < _ from h)]

/-- **Splitting follows the grammar.** A clause of at most 65536 bytes splits exactly when it is a
sequence of segments between commas, into the parameters that these stand for; a longer one is
refused for its length. -/
theorem split_eq_ok_iff (text : String) :
    (text.utf8ByteSize ≤ 65536 →
      ∀ ps, split text = .ok ps ↔ Segments .start text.toList ps) ∧
    (65536 < text.utf8ByteSize → split text = .error (.clauseTooLong text.utf8ByteSize)) := by
  rw [← Text.bytes_toList]
  constructor
  · intro hlen ps
    rw [split_of_le hlen]
    exact splitFrom_eq_ok_iff
  · exact split_of_lt

end Clause
end ImageCheck
