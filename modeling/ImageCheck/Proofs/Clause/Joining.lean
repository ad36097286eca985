/-
# Clauses joined by a comma

`SPEC_FULL` §4.6: pairs are separated by commas.

A comma between two clauses keeps them apart. If the first splits, the joined clause
is the first followed by the second, whatever comes of the second; only the places of
the second move on by the length of the first and the comma. If the first fails, so
does the joined clause, with the same failure: all but an open quote, which may find
its end in the second (`split_append_comma`).

No reader looks at how far a text is from the start of its clause, so the grammar of
good clauses and that of broken ones hold wherever a text stands (`Segments.shift`,
`Broken.shift`). That a clause goes on behind a comma is one induction over each
grammar: `Segments.append`, `Segments.append_broken`, `Broken.append`.
-/

import ImageCheck.Proofs.Clause.Broken
import ImageCheck.Proofs.Compile.Run

namespace ImageCheck

/-! ### Moving places -/

namespace Position

/-- The place so many bytes and characters further on. -/
def shift (bytes columns : Nat) (p : Position) : Position :=
  ⟨p.offset + bytes, p.column + columns⟩

variable (bytes columns : Nat) (p : Position)

/-- One step from a place that was moved on is that step moved on. -/
@[simp]
theorem advance_shift (ch : Char) :
    (p.shift bytes columns).advance ch = (p.advance ch).shift bytes columns := by
  simp only [shift, advance, mk.injEq]
  omega

/-- A walk from a place that was moved on is that walk moved on. -/
@[simp]
theorem advanceBy_shift (cs : List Char) :
    (p.shift bytes columns).advanceBy cs = (p.advanceBy cs).shift bytes columns := by
  simp only [shift, advanceBy_eq, mk.injEq]
  omega

/-- The place behind a text and a comma is the length of both further on. -/
theorem advance_advanceBy_comma (text : String) :
    (p.advanceBy text.toList).advance ',' =
      p.shift (text.utf8ByteSize + 1) (text.length + 1) := by
  rw [advanceBy_eq, Text.bytes_toList, String.length_toList]
  rfl

end Position

/-- A parameter further on in a clause. -/
def Parameter.shift (bytes columns : Nat) (p : Parameter) : Parameter :=
  { p with position := p.position.shift bytes columns }

/-- A failure further on in a clause. -/
def SplitError.shift (bytes columns : Nat) : SplitError → SplitError
  | .clauseTooLong length => .clauseTooLong length
  | .emptyKey position => .emptyKey (position.shift bytes columns)
  | .unterminatedQuote position => .unterminatedQuote (position.shift bytes columns)
  | .unexpectedAfterQuote text position => .unexpectedAfterQuote text (position.shift bytes columns)

namespace Clause

section Shift

variable {start : Position} {w : List Char} {e : SplitError} (bytes columns : Nat)

/-- A segment that stands further on is the same segment with its parameter moved on. -/
theorem Segment.shift {p : Option Parameter} (h : Segment start w p) :
    Segment (start.shift bytes columns) w (p.map (Parameter.shift bytes columns)) := by
  cases h with
  | blank h => exact .blank h
  | parameter hblanks h =>
    have hsegment : Segment (start.shift bytes columns) _ _ := .parameter hblanks h
    rw [Position.advanceBy_shift] at hsegment
    exact hsegment

/-- So is a clause. -/
theorem Segments.shift {ps : List Parameter} (h : Segments start w ps) :
    Segments (start.shift bytes columns) w (ps.map (Parameter.shift bytes columns)) := by
  induction h with
  | @last _ _ p h =>
    have hlast := Segments.last (h.shift bytes columns)
    cases p <;> exact hlast
  | @cons _ _ _ p _ h _ ih =>
    rw [← Position.advance_shift, ← Position.advanceBy_shift] at ih
    have hcons := Segments.cons (h.shift bytes columns) ih
    cases p <;> exact hcons

/-- A broken value that stands further on fails further on. -/
theorem BrokenValue.shift (h : BrokenValue start w e) :
    BrokenValue (start.shift bytes columns) w (e.shift bytes columns) := by
  cases h with
  | unterminated hgap hw =>
    have hbroken : BrokenValue (start.shift bytes columns) _ _ := .unterminated hgap hw
    rw [Position.advanceBy_shift] at hbroken
    exact hbroken
  | unexpected hgap hw hblanks hstray hrest =>
    have hbroken : BrokenValue (start.shift bytes columns) _ _ :=
      .unexpected hgap hw hblanks hstray hrest
    rw [Position.advanceBy_shift] at hbroken
    exact hbroken

/-- So does a broken parameter. -/
theorem BrokenParameter.shift (h : BrokenParameter start w e) :
    BrokenParameter (start.shift bytes columns) w (e.shift bytes columns) := by
  cases h with
  | emptyKey => exact .emptyKey
  | value hkey hvalue =>
    refine .value hkey ?_
    rw [Position.advanceBy_shift, Position.advance_shift]
    exact hvalue.shift bytes columns

/-- So does a broken clause. -/
theorem Broken.shift (h : Broken start w e) :
    Broken (start.shift bytes columns) w (e.shift bytes columns) := by
  induction h with
  | here hblanks hparameter =>
    refine .here hblanks ?_
    rw [Position.advanceBy_shift]
    exact hparameter.shift bytes columns
  | later h _ ih =>
    refine .later (h.shift bytes columns) ?_
    rw [Position.advanceBy_shift, Position.advance_shift]
    exact ih

end Shift

/-! ### Going on behind a comma -/

section Append

variable {start : Position} {w rest : List Char} {e : SplitError}

/-- The place behind a segment, a comma, a clause and a comma. -/
theorem advance_advanceBy_append (start : Position) (w v : List Char) :
    (start.advanceBy (w ++ ',' :: v)).advance ',' =
      (((start.advanceBy w).advance ',').advanceBy v).advance ',' := by
  rw [Position.advanceBy_append]
  rfl

/-- A clause that splits goes on behind a comma with another that does. -/
theorem Segments.append {ps qs : List Parameter} (h : Segments start w ps)
    (hrest : Segments ((start.advanceBy w).advance ',') rest qs) :
    Segments start (w ++ ',' :: rest) (ps ++ qs) := by
  induction h with
  | last h => exact .cons h hrest
  | cons h _ ih =>
    rw [advance_advanceBy_append] at hrest
    rw [List.append_assoc, List.append_assoc, List.cons_append]
    exact .cons h (ih hrest)

/-- A broken clause fails in the same way behind a clause that splits. -/
theorem Segments.append_broken {ps : List Parameter} (h : Segments start w ps)
    (hrest : Broken ((start.advanceBy w).advance ',') rest e) :
    Broken start (w ++ ',' :: rest) e := by
  induction h with
  | last h => exact .later h hrest
  | cons h _ ih =>
    rw [advance_advanceBy_append] at hrest
    rw [List.append_assoc, List.cons_append]
    exact .later h (ih hrest)

/-- Stray text ends at the comma, so a value that it breaks is broken whatever comes behind. -/
theorem BrokenValue.append (h : BrokenValue start w e) (he : ∀ p, e ≠ .unterminatedQuote p)
    (rest : List Char) : BrokenValue start (w ++ ',' :: rest) e := by
  cases h with
  | unterminated _ _ => exact absurd rfl (he _)
  | @unexpected gap u _ blanks stray tail hgap hw hblanks hstray htail =>
    have hend : EndsSegment (tail ++ ',' :: rest) := by
      rcases endsSegment_iff.1 htail with rfl | ⟨more, rfl⟩
      · simp [EndsSegment]
      · simp [EndsSegment]
    have hbroken : BrokenValue start _ _ := .unexpected hgap hw hblanks hstray hend
    simpa using hbroken

/-- **A broken clause is broken whatever comes behind a comma**, unless a quote is open at its
end. -/
theorem Broken.append (h : Broken start w e) (he : ∀ p, e ≠ .unterminatedQuote p)
    (rest : List Char) : Broken start (w ++ ',' :: rest) e := by
  induction h with
  | here hblanks hparameter =>
    rw [List.append_assoc]
    refine .here hblanks ?_
    cases hparameter with
    | emptyKey => exact .emptyKey
    | value hkey hvalue =>
      rw [List.append_assoc]
      exact .value hkey (hvalue.append he rest)
  | later h _ ih =>
    rw [List.append_assoc, List.cons_append]
    exact .later h (ih he)

end Append

/-! ### The result -/

section Joined

variable {a b : String}

theorem utf8ByteSize_append_comma (a b : String) :
    (a ++ "," ++ b).utf8ByteSize = a.utf8ByteSize + 1 + b.utf8ByteSize := by
  rw [String.utf8ByteSize_append, String.utf8ByteSize_append]
  rfl

theorem toList_append_comma (a b : String) :
    (a ++ "," ++ b).toList = a.toList ++ ',' :: b.toList := by
  simp

/-- If both clauses split, the joined one has the parameters of the first and those of the second,
moved on. -/
theorem split_append_comma_of_ok (hlen : a.utf8ByteSize + 1 + b.utf8ByteSize ≤ 65536)
    {pa pb : List Parameter} (ha : split a = .ok pa) (hb : split b = .ok pb) :
    split (a ++ "," ++ b) =
      .ok (pa ++ pb.map (Parameter.shift (a.utf8ByteSize + 1) (a.length + 1))) := by
  rw [split_eq_ok_iff_segments (by omega)] at ha hb
  rw [split_eq_ok_iff_segments (by rwa [utf8ByteSize_append_comma]), toList_append_comma]
  refine ha.append ?_
  rw [Position.advance_advanceBy_comma]
  exact hb.shift _ _

/-- If the first fails other than by an open quote, the joined clause fails as it does. -/
theorem split_append_comma_of_error (hlen : a.utf8ByteSize + 1 + b.utf8ByteSize ≤ 65536)
    {e : SplitError} (ha : split a = .error e) (he : ∀ p, e ≠ .unterminatedQuote p) :
    split (a ++ "," ++ b) = .error e := by
  rw [split_eq_error_iff_broken (by omega)] at ha
  rw [split_eq_error_iff_broken (by rwa [utf8ByteSize_append_comma]), toList_append_comma]
  exact ha.append he _

/-- **A comma keeps two clauses apart.** Behind a clause that splits, another does what it does
alone, at places that are further on; a clause that fails other than by an open quote fails in the
same way whatever comes behind the comma. So two clauses that split compile as their parameters
do. -/
theorem split_append_comma (a b : String)
    (hlen : a.utf8ByteSize + 1 + b.utf8ByteSize ≤ 65536) :
    (∀ pa, split a = .ok pa →
      (∀ pb, split b = .ok pb → split (a ++ "," ++ b) =
        .ok (pa ++ pb.map (Parameter.shift (a.utf8ByteSize + 1) (a.length + 1)))) ∧
      (∀ e, split b = .error e → split (a ++ "," ++ b) =
        .error (e.shift (a.utf8ByteSize + 1) (a.length + 1)))) ∧
    (∀ position, split a = .error (.emptyKey position) →
      split (a ++ "," ++ b) = .error (.emptyKey position)) ∧
    (∀ text position, split a = .error (.unexpectedAfterQuote text position) →
      split (a ++ "," ++ b) = .error (.unexpectedAfterQuote text position)) ∧
    (∀ pa pb, split a = .ok pa → split b = .ok pb → ∀ directory defaults,
      compileClause directory defaults (a ++ "," ++ b) =
        compileParameters directory defaults (pa ++ pb)) := by
  refine ⟨fun pa ha => ⟨fun pb hb => split_append_comma_of_ok hlen ha hb, fun e hb => ?_⟩,
    fun position ha => split_append_comma_of_error hlen ha (by simp),
    fun text position ha => split_append_comma_of_error hlen ha (by simp),
    fun pa pb ha hb directory defaults => ?_⟩
  · rw [split_eq_ok_iff_segments (by omega)] at ha
    rw [split_eq_error_iff_broken (by omega)] at hb
    rw [split_eq_error_iff_broken (by rwa [utf8ByteSize_append_comma]), toList_append_comma]
    refine ha.append_broken ?_
    rw [Position.advance_advanceBy_comma]
    exact hb.shift _ _
  · rw [compileClause, split_append_comma_of_ok hlen ha hb]
    -- the places of the second clause have moved, its names and values have not
    refine compileParameters_congr directory defaults ?_
    simp [Parameter.shift]

/-- Behind ten bytes, eight characters and a comma, a flag and a missing name are found at offset 11
and column 10. -/
theorem split_append_comma_stretch :
    split ("file: éé" ++ "," ++ "stretch") =
        .ok [⟨"file", "éé", ⟨0, 1⟩⟩, ⟨"stretch", "", ⟨11, 10⟩⟩] ∧
      split ("file: éé" ++ "," ++ ": 5") = .error (.emptyKey ⟨11, 10⟩) := by
  have hfile : split "file: éé" = .ok [⟨"file", "éé", ⟨0, 1⟩⟩] := by decide +kernel
  have hflag : split "stretch" = .ok [⟨"stretch", "", ⟨0, 1⟩⟩] := by decide +kernel
  have hcolon : split ": 5" = .error (.emptyKey ⟨0, 1⟩) := by decide +kernel
  obtain ⟨hok, -⟩ := split_append_comma "file: éé" "stretch" (by decide)
  obtain ⟨herror, -⟩ := split_append_comma "file: éé" ": 5" (by decide)
  exact ⟨(hok _ hfile).1 _ hflag, (herror _ hfile).2 _ hcolon⟩

end Joined
end Clause
end ImageCheck
