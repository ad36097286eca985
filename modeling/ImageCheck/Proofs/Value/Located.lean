/-
# Where a failure to read stands

`SPEC_FULL` §4.5; the positions and spans of `LexerError`.

A failure to read a value keeps a place and, at most, a text or a length; its span is worked
out from these. Here the spans are compared with the value itself:

| failure | its span |
| --- | --- |
| a missing word or number | the point at the end of the value |
| an invalid number | the run that the failure quotes |
| a token that is too long | the columns of that run, without its bytes |
| trailing content | from the first run not asked for to the last character that is not blank |

`ReadError.Shows` is this table. All rows rest on what is found in the value: a run where it
begins (`IsRun.found`), and trailing content behind what was read (`found_of_eq_append`).
The failures of a filter and of a list of numbers are in it, row by row of their own
tables (`FilterOutcome.shows`, `NumbersFault.shows`).
-/

import ImageCheck.Proofs.Value.Numbers

namespace ImageCheck

/-- A place between two characters of a text, with the column that counts the characters
before it. -/
def Position.IsIn (value : String) (p : Position) : Prop :=
  ∃ before rest, value = before ++ rest ∧ p.offset = before.utf8ByteSize ∧
    p.column = 1 + before.length

/-- The characters of a text in the columns of a span. -/
def Span.columns (s : Span) (cs : List Char) : List Char :=
  (cs.drop (s.start.column - 1)).take (s.stop.column - s.start.column)

/-- What stands in a value at the span of a failure, if the value has these runs and the first
`wanted` of them were asked for. -/
def ReadError.Shows (value : String) (runs : List Token) (wanted : Nat) (e : ReadError) : Prop :=
  match e with
  | .missingWord _ | .missingNumber _ => e.span = .point (.endOf value)
  | .invalidNumber text _ =>
    e.span.slice value.toList = some text.toList ∧ ⟨e.span.start, text.toList⟩ ∈ runs
  | .tokenTooLong length position =>
    4096 < length ∧ ∃ t ∈ runs, t.start = position ∧ t.text.length = length ∧
      e.span.columns value.toList = t.text ∧
      e.span.stop.column = (t.start.advanceBy t.text).column
  | .trailingContent text _ =>
    e.span.slice value.toList = some text.toList ∧
      (∃ t, runs[wanted]? = some t ∧ t.start = e.span.start) ∧
      ∃ before blanks, value.toList = before ++ (text.toList ++ blanks) ∧
        e.span.start = Position.start.advanceBy before ∧
        (∀ ch ∈ blanks, Text.isBlank ch = true) ∧
        ∀ ch ∈ text.toList.getLast?, Text.isBlank ch = false

/-! ### Places -/

/-- The end of a value is a place in it. -/
theorem Position.isIn_endOf (value : String) : (Position.endOf value).IsIn value :=
  ⟨value, "", by simp, rfl, rfl⟩

/-- What stands in a value stands at a place in it. -/
theorem Found.isIn {value : String} {cs : List Char} {p : Position} (h : Found value cs p) :
    p.IsIn value := by
  obtain ⟨rest, before, after, hvalue, hoffset, hcolumn, -⟩ := h
  exact ⟨before, after, hvalue, hoffset, hcolumn⟩

/-- What is found at a place fills the columns from there on. -/
theorem Found.columns {value : String} {cs : List Char} {p : Position} (h : Found value cs p)
    {s : Span} (hstart : s.start = p) (hstop : s.stop.column = p.column + cs.length) :
    s.columns value.toList = cs := by
  obtain ⟨rest, before, after, rfl, -, hcolumn, hrest⟩ := h
  simp only at hcolumn hrest
  have hbefore : s.start.column - 1 = before.toList.length := by
    rw [hstart, String.length_toList]
    omega
  have hwidth : s.stop.column - s.start.column = cs.length := by
    rw [hstop, hstart]
    omega
  rw [Span.columns, hbefore, hwidth, String.toList_append, ← hrest, List.drop_left, List.take_left]

/-! ### Rows -/

section Rows

variable {value : String} {runs : List Token} {wanted : Nat} {t : Token}

/-- An invalid number is shown with its run below the carets. -/
theorem shows_invalidNumber (hruns : RunsOf value.toList runs) (ht : t ∈ runs) :
    let e := ReadError.invalidNumber (String.ofList t.text) t.start
    e.span.start.IsIn value ∧ e.Shows value runs wanted := by
  have hfound := ((hruns.mem_iff t).1 ht).found
  refine ⟨hfound.isIn, ?_⟩
  simp only [ReadError.Shows, ReadError.span, String.toList_ofList]
  exact ⟨hfound.slice, ht⟩

/-- The columns of a token that is too long are those of its run. -/
theorem shows_tokenTooLong (hruns : RunsOf value.toList runs) (ht : t ∈ runs)
    (hlong : 4096 < t.text.length) :
    let e := ReadError.tokenTooLong t.text.length t.start
    e.span.start.IsIn value ∧ e.Shows value runs wanted := by
  have hfound := ((hruns.mem_iff t).1 ht).found
  refine ⟨hfound.isIn, hlong, t, ht, rfl, rfl, hfound.columns rfl rfl, ?_⟩
  rw [Position.advanceBy_eq]
  rfl

/-- Trailing content is shown from its first run to its last. -/
theorem shows_trailingContent {before trail blanks : List Char} (ht : runs[wanted]? = some t)
    (hvalue : value.toList = before ++ (trail ++ blanks))
    (hstart : t.start = Position.start.advanceBy before)
    (hblanks : ∀ ch ∈ blanks, Text.isBlank ch = true)
    (hlast : ∀ ch ∈ trail.getLast?, Text.isBlank ch = false) :
    let e := ReadError.trailingContent (String.ofList trail) t.start
    e.span.start.IsIn value ∧ e.Shows value runs wanted := by
  have hfound : Found value trail t.start := by
    rw [hstart]
    exact found_of_eq_append hvalue
  refine ⟨hfound.isIn, ?_⟩
  simp only [ReadError.Shows, ReadError.span, String.toList_ofList]
  exact ⟨hfound.slice, ⟨t, ht, rfl⟩, before, blanks, hvalue, hstart, hblanks, hlast⟩

end Rows

/-! ### Filters and numbers -/

section Tables

variable {value : String} {runs : List Token} {e : ReadError}

/-- A failure to read a filter stands where its span says. A filter asks for two runs. -/
theorem FilterOutcome.shows (h : FilterOutcome value runs (.error (.read e)))
    (hruns : RunsOf value.toList runs) : e.span.start.IsIn value ∧ e.Shows value runs 2 := by
  cases h with
  | missingWord | missingNumber => exact ⟨Position.isIn_endOf value, rfl⟩
  | longWord hlong | longNumber _ hlong => exact shows_tokenTooLong hruns (by simp) hlong
  | invalidNumber => exact shows_invalidNumber hruns (by simp)
  | trailing _ _ _ _ htext hstart hblanks hlast =>
    exact shows_trailingContent rfl htext hstart hblanks hlast

/-- A failure to read `n` numbers stands where its span says. -/
theorem NumbersFault.shows {n : Nat} (h : NumbersFault value runs n e)
    (hruns : RunsOf value.toList runs) : e.span.start.IsIn value ∧ e.Shows value runs n := by
  rcases h with ⟨-, hmissing | ⟨ht, hlong⟩ | ⟨ht, -, -⟩, -⟩ |
    ⟨-, ht, htext, hstart, hblanks, hlast⟩
  · exact ⟨Position.isIn_endOf value, rfl⟩
  · exact shows_tokenTooLong hruns (List.mem_of_getElem? ht) hlong
  · exact shows_invalidNumber hruns (List.mem_of_getElem? ht)
  · exact shows_trailingContent ht htext hstart hblanks hlast

end Tables

/-- **A failure to read stands where its span says.** The span of a failure of a filter, and of a
list of `n` numbers, begins between two characters of the value, in the column that counts the
characters before, and shows what the failure is about. -/
theorem readError_shows (value : String) (hlength : value.length < 2 ^ 32 - 1) :
    ∃ runs, RunsOf value.toList runs ∧
      (∀ e, Value.filter value = .error (.read e) →
        e.span.start.IsIn value ∧ e.Shows value runs 2 ∧ e.span.stop.column < 2 ^ 32) ∧
      ∀ n e, readNumbers n value = .error e →
        e.span.start.IsIn value ∧ e.Shows value runs n ∧ e.span.stop.column < 2 ^ 32 := by
  have hruns := Cursor.runsOf_tokens value.toList
  refine ⟨_, hruns, fun e he => ?_, fun n e he => ?_⟩
  · have houtcome : FilterOutcome value _ (.error (.read e)) :=
      he ▸ Value.filterOutcome_tokens value
    obtain ⟨hstart, hshows⟩ := houtcome.shows hruns
    have hcolumn := houtcome.stop_column_le hruns
    exact ⟨hstart, hshows, by omega⟩
  · have hfault := readNumbers_eq_error_iff.1 he
    obtain ⟨hstart, hshows⟩ := hfault.shows hruns
    have hcolumn := hfault.stop_column_le hruns
    exact ⟨hstart, hshows, by omega⟩

/-- The invalid number behind a character of two bytes is cut out by its span, at column `3` and
byte `3`. -/
theorem readError_shows_afterUmlaut :
    Value.filter "ü 1e5 " = .error (.read (.invalidNumber "1e5" ⟨3, 3⟩)) ∧
      ∃ runs, RunsOf "ü 1e5 ".toList runs ∧
        (ReadError.invalidNumber "1e5" ⟨3, 3⟩).Shows "ü 1e5 " runs 2 := by
  have hread : Value.filter "ü 1e5 " = .error (.read (.invalidNumber "1e5" ⟨3, 3⟩)) := by
    decide +kernel
  obtain ⟨runs, hruns, hfilter, -⟩ := readError_shows "ü 1e5 " (by decide)
  exact ⟨hread, runs, hruns, (hfilter _ hread).2.1⟩

end ImageCheck
