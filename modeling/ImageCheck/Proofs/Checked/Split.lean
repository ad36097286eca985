/-
# Splitting a clause without a trap

`SPEC_FULL` §4.6; `split_parameters`, `next_parameter`, `read_value`, `read_quoted`,
`take_until`, `skip_whitespace`, `peek` and `bump`, function by function.

The splitter of a clause as a checked computation: from a place in the clause to the next
one, character by character, with every cut and every step checked. It never traps, and
it splits a clause as `Clause.split` does: `split_eq`.

Every function has one lemma that says so for a cursor that stands in the clause. Each of
the three loops has its own reason to end, which is what its lemma shows:

| loop | what a pass that goes on has read |
| --- | --- |
| `readQuoted` | a character between quotes, or a backslash and a character |
| `skipSegments` | the comma behind an empty segment |
| `split` | a parameter, whose name is not empty |
-/

import ImageCheck.Proofs.Checked.Basic
import ImageCheck.Proofs.Clause.Broken

namespace ImageCheck
namespace Checked

section Source

variable (source : String)

/-- The text inside quotes and the place after the closing quote, if there is one; `value` holds,
last character first, what has been read. -/
def readQuoted (value : List Char) (p : Position) : Checked (Option (List Char × Position)) :=
  loop source Prod.snd
    (fun (value, p) => do
      match ← bump source p with
      | (none, _) => return .done none
      | (some ch, p) =>
        if ch = '"' then return .done (some (value.reverse, p))
        else if ch = '\\' then
          match ← bump source p with
          | (none, _) => return .done none
          | (some ch, p) =>
            if ch = '"' ∨ ch = '\\' then return .again (ch :: value, p)
            else return .again (ch :: '\\' :: value, p)
        else return .again (ch :: value, p))
    (value, p)

/-- Accepts a place after a quoted value if only blanks stand before it and the next comma. -/
def afterQuoted (p : Position) : Checked (Except SplitError Position) := do
  let p ← skipWhile source Text.isBlank p
  match ← peek source p with
  | none => return .ok p
  | some ch =>
    if Clause.endsValue ch then return .ok p
    else
      let (text, _) ← takeUntil source Clause.endsValue p
      return .error (.unexpectedAfterQuote (String.ofList (Text.trimEnd text)) p)

/-- The value that follows a colon, and the place after it. -/
def readValue (p : Position) : Checked (Except SplitError (List Char × Position)) := do
  let p ← skipWhile source Text.isBlank p
  if (← peek source p) = some '"' then
    let (_, opened) ← bump source p
    match ← readQuoted source [] opened with
    | none => return .error (.unterminatedQuote p)
    | some (value, q) =>
      match ← afterQuoted source q with
      | .error e => return .error e
      | .ok q => return .ok (value, q)
  else
    let (text, q) ← takeUntil source Clause.endsValue p
    return .ok (Text.trimEnd text, q)

/-- The value of a parameter whose name has just been read: the text after a colon, or nothing. -/
def readOptionalValue (p : Position) : Checked (Except SplitError (List Char × Position)) := do
  if (← peek source p) = some ':' then
    let (_, q) ← bump source p
    readValue source q
  else return .ok ([], p)

/-- The place after a comma, if one follows. -/
def skipComma (p : Position) : Checked Position := do
  if (← peek source p) = some ',' then
    let (_, q) ← bump source p
    return q
  else return p

/-- The parameter that begins at a place, and the place after it and its comma. -/
def readParameter (p : Position) : Checked (Except SplitError (Parameter × Position)) := do
  let (text, q) ← takeUntil source Clause.endsKey p
  let key := Text.trimEnd text
  if key = [] then return .error (.emptyKey p)
  else
    match ← readOptionalValue source q with
    | .error e => return .error e
    | .ok (value, q) =>
      let q ← skipComma source q
      return .ok (⟨String.ofList key, String.ofList value, p⟩, q)

/-- Skips blanks, and a comma behind them. Without a comma the next character is that of a
parameter, if there is one. -/
def segmentPass (p : Position) : Checked (Pass Position (Option Char × Position)) := do
  let p ← skipWhile source Text.isBlank p
  match ← peek source p with
  | none => return .done (none, p)
  | some ch =>
    if ch = ',' then
      let (_, q) ← bump source p
      return .again q
    else return .done (some ch, p)

/-- The next character that is neither blank nor a comma, and its place. -/
def skipSegments : Position → Checked (Option Char × Position) :=
  loop source id (segmentPass source)

/-- The next parameter, if there is one, and the place after it. -/
def nextParameter (p : Position) : Checked (Except SplitError (Option (Parameter × Position))) := do
  match ← skipSegments source p with
  | (none, _) => return .ok none
  | (some _, p) =>
    match ← readParameter source p with
    | .error e => return .error e
    | .ok r => return .ok (some r)

end Source

/-- Adds the next parameter to those that have been read, last first. -/
def splitPass (text : String) (s : List Parameter × Position) :
    Checked (Pass (List Parameter × Position) (Except SplitError (List Parameter))) := do
  match ← nextParameter text s.2 with
  | .error e => return .done (.error e)
  | .ok none => return .done (.ok s.1.reverse)
  | .ok (some (parameter, p)) => return .again (parameter :: s.1, p)

/-- The parameters of a clause, in order. A clause of too many bytes is not looked at. -/
def split (text : String) : Checked (Except SplitError (List Parameter)) :=
  if maxClauseBytes < text.utf8ByteSize then .ok (.error (.clauseTooLong text.utf8ByteSize))
  else loop text Prod.snd (splitPass text) ([], .start)

/-! ### Where the readers stop -/

section Passes

variable {c d : Cursor} {v : List Char}

/-- Reading a value that may be missing moves forward over characters of the clause. -/
theorem exists_passes_readOptionalValue (h : Clause.readOptionalValue c = .ok (v, d)) :
    ∃ w, c.Passes w d := by
  unfold Clause.readOptionalValue at h
  split at h
  · rename_i rest hrest
    obtain ⟨gap, w, -, -, -, hvalue, hposition⟩ := Clause.exists_valueText_of_readValue h
    have hpass : Cursor.Passes ⟨c.position.advance ':', rest⟩ (gap ++ w) d :=
      ⟨by rw [List.append_assoc]; exact hvalue, hposition⟩
    exact ⟨_, (Cursor.passes_cons hrest).trans hpass⟩
  · obtain ⟨-, rfl⟩ := Prod.mk.inj (Except.ok.inj h)
    exact ⟨[], .refl c⟩

/-- So does passing a comma. -/
theorem exists_passes_skipComma (c : Cursor) : ∃ w, c.Passes w (Clause.skipComma c) := by
  unfold Clause.skipComma
  split
  · rename_i rest hrest
    exact ⟨_, Cursor.passes_cons hrest⟩
  · exact ⟨[], .refl c⟩

/-- So does reading a parameter. -/
theorem exists_passes_readParameter {p : Parameter} (h : Clause.readParameter c = .ok (p, d)) :
    ∃ w, c.Passes w d := by
  simp only [Clause.readParameter] at h
  split at h
  · cases h
  · split at h
    · cases h
    · rename_i value after hvalue
      obtain ⟨-, rfl⟩ := Prod.mk.inj (Except.ok.inj h)
      obtain ⟨w, hw⟩ := exists_passes_readOptionalValue hvalue
      obtain ⟨comma, hcomma⟩ := exists_passes_skipComma after
      exact ⟨_, ((c.passes_skipWhile _).trans hw).trans hcomma⟩

end Passes

/-- A character of an empty segment, or the comma behind it. -/
def separates (ch : Char) : Bool := Text.isBlank ch || ch = ','

/-- What ends all empty segments is neither blank nor a comma. -/
theorem not_isBlank_of_separates {ch : Char} (h : separates ch = false) :
    Text.isBlank ch = false ∧ ch ≠ ',' := by
  simpa [separates] using h

/-- Blanks belong to the empty segments. -/
theorem skipBlanks_skipWhile_separates (c : Cursor) :
    c.skipBlanks.skipWhile separates = c.skipWhile separates :=
  Cursor.skipWhile_skipWhile (fun ch hch => by simp [separates, hch]) c

/-- Behind blanks stands the end, a comma, or the end of all empty segments. -/
theorem separates_cases (c : Cursor) :
    (∃ p, c.skipBlanks = ⟨p, []⟩ ∧ c.skipWhile separates = ⟨p, []⟩) ∨
    (∃ p rest, c.skipBlanks = ⟨p, ',' :: rest⟩ ∧
      c.skipWhile separates = Cursor.skipWhile separates ⟨p.advance ',', rest⟩) ∨
    (∃ p ch rest, c.skipBlanks = ⟨p, ch :: rest⟩ ∧ ch ≠ ',' ∧
      c.skipWhile separates = ⟨p, ch :: rest⟩) := by
  have hhead := c.head_skipBlanks
  rw [← skipBlanks_skipWhile_separates]
  generalize c.skipBlanks = d at hhead
  obtain ⟨p, cs⟩ := d
  cases cs with
  | nil => exact .inl ⟨p, rfl, rfl⟩
  | cons ch rest =>
    right
    by_cases hcomma : ch = ','
    · subst hcomma
      exact .inl ⟨p, rest, rfl, Cursor.skipWhile_cons rfl p rest⟩
    · have hblank : Text.isBlank ch = false := hhead ch rfl
      refine .inr ⟨p, ch, rest, rfl, hcomma, Cursor.skipWhile_eq_self ?_⟩
      simp [separates, hblank, hcomma]

/-- Empty segments say nothing. -/
theorem splitFrom_skipWhile_separates (read : List Parameter) (c : Cursor) :
    Clause.splitFrom read (c.skipWhile separates) = Clause.splitFrom read c := by
  induction hn : c.rest.length using Nat.strongRecOn generalizing c with
  | ind n ih =>
    subst hn
    have hlength := c.length_skipBlanks_le
    rcases separates_cases c with ⟨p, hskip, hend⟩ | ⟨p, rest, hskip, hagain⟩ |
      ⟨p, ch, rest, hskip, hcomma, hend⟩
    · rw [hend, Clause.splitFrom_of_nil read hskip]
      exact Clause.splitFrom_of_nil read rfl
    · rw [hskip] at hlength
      rw [hagain, Clause.splitFrom_of_comma read hskip]
      exact ih _ hlength _ rfl
    · have hstay : (⟨p, ch :: rest⟩ : Cursor).skipBlanks = ⟨p, ch :: rest⟩ := by
        refine Cursor.skipWhile_eq_self ?_
        rw [← hskip]
        exact c.head_skipBlanks
      rw [hend, Clause.splitFrom_of_cons read hskip hcomma,
        Clause.splitFrom_of_cons read hstay hcomma]

/-! ### No trap -/

theorem head?_ne_some {cs : List Char} {ch : Char} (h : ∀ rest, cs = ch :: rest → False) :
    cs.head? ≠ some ch := by
  intro hhead
  obtain ⟨rest, hcs⟩ := List.head?_eq_some_iff.1 hhead
  exact h rest hcs

section Standing

variable {source : String} (hshort : source.length ≤ maxClauseBytes) {c : Cursor}

include hshort

/-- Quoted text is read without a trap; each pass that goes on has read a character or an escape. -/
theorem readQuoted_eq (value : List Char) (h : c.StandsIn source) :
    readQuoted source value c.position =
      .ok ((Clause.readQuoted value c.position c.rest).map located) := by
  refine loop_eq (fun t : List Char × Cursor => (t.1, t.2.position)) Prod.snd (fun _ => rfl)
    (fun t => (Clause.readQuoted t.1 t.2.position t.2.rest).map located) ?_ (value, c) h
  rintro ⟨value, start, cs⟩ (h : Cursor.StandsIn source ⟨start, cs⟩)
  cases cs with
  | nil =>
    left
    simp only [bump_nil h rfl]
    rfl
  | cons ch rest =>
    have hnext := h.advance rfl
    simp only [bump_cons hshort h rfl, ok_bind]
    by_cases hquote : ch = '"'
    · left
      subst hquote
      rfl
    · by_cases hslash : ch = '\\'
      · subst hslash
        simp only [if_neg hquote, if_true]
        -- a backslash takes the character behind it along, so this pass reads two
        cases rest with
        | nil =>
          left
          simp only [bump_nil hnext rfl]
          rfl
        | cons d rest =>
          right
          have hafter := hnext.advance rfl
          have hless : rest.length < ('\\' :: d :: rest).length := by
            simp only [List.length_cons]
            omega
          simp only [bump_cons hshort hnext rfl, ok_bind]
          by_cases hd : d = '"' ∨ d = '\\'
          · refine ⟨(d :: value, _), ?_, hafter, hless, ?_⟩
            · simp only [if_pos hd]
              rfl
            · simp [Clause.readQuoted, hd]
          · refine ⟨(d :: '\\' :: value, _), ?_, hafter, hless, ?_⟩
            · simp only [if_neg hd]
              rfl
            · simp [Clause.readQuoted, hd]
      · right
        refine ⟨(ch :: value, _), ?_, hnext, Nat.lt_succ_self _, ?_⟩
        · simp only [if_neg hquote, if_neg hslash]
          rfl
        · simp [Clause.readQuoted, hslash]

/-- What stands behind a closing quote is looked at without a trap. -/
theorem afterQuoted_eq (h : c.StandsIn source) :
    afterQuoted source c.position = .ok ((Clause.afterQuoted c).map Cursor.position) := by
  have hblanks := h.skipBlanks
  have hskip := skipBlanks_eq hshort h
  simp only [afterQuoted, Clause.afterQuoted, hskip, ok_bind, peek_eq hblanks]
  cases hrest : c.skipBlanks.rest with
  | nil => rfl
  | cons ch rest =>
    simp only [List.head?_cons]
    by_cases hch : Clause.endsValue ch = true
    · simp only [if_pos hch]
      rfl
    · simp only [if_neg hch, takeUntil_eq hshort hblanks]
      rfl

/-- A value is read without a trap. -/
theorem readValue_eq (h : c.StandsIn source) :
    readValue source c.position = .ok ((Clause.readValue c).map located) := by
  have hblanks := h.skipBlanks
  have hskip := skipBlanks_eq hshort h
  simp only [Clause.readValue]
  split
  · rename_i rest hrest
    have hopened := hblanks.advance hrest
    have hquoted := readQuoted_eq hshort [] hopened
    simp only [readValue, hskip, peek_eq hblanks, ok_bind, hrest, List.head?_cons, if_true,
      bump_cons hshort hblanks hrest, hquoted]
    cases hread : Clause.readQuoted [] (c.skipBlanks.position.advance '"') rest with
    | none => rfl
    | some r =>
      obtain ⟨w, u, -, hw, -, hposition⟩ := Clause.exists_quoted_of_readQuoted hread
      have hclosed : r.2.StandsIn source := by
        refine hopened.passes (w := w ++ ['"']) ⟨?_, ?_⟩
        · simpa using hw
        · simpa [Position.advanceBy] using hposition
      simp only [Option.map_some, located, afterQuoted_eq hshort hclosed, ok_bind]
      cases Clause.afterQuoted r.2 <;> rfl
  · rename_i hrest
    simp only [readValue, hskip, peek_eq hblanks, ok_bind, if_neg (head?_ne_some hrest),
      takeUntil_eq hshort hblanks]
    rfl

/-- A value that may be missing is read without a trap. -/
theorem readOptionalValue_eq (h : c.StandsIn source) :
    readOptionalValue source c.position = .ok ((Clause.readOptionalValue c).map located) := by
  rw [Clause.readOptionalValue]
  split
  · rename_i rest hrest
    simp only [readOptionalValue, peek_eq h, ok_bind, hrest, List.head?_cons, if_true,
      bump_cons hshort h hrest]
    exact readValue_eq hshort (h.advance hrest)
  · rename_i hrest
    simp only [readOptionalValue, peek_eq h, ok_bind, if_neg (head?_ne_some hrest)]
    rfl

/-- A comma is passed without a trap. -/
theorem skipComma_eq (h : c.StandsIn source) :
    skipComma source c.position = .ok (Clause.skipComma c).position := by
  rw [Clause.skipComma]
  split
  · rename_i rest hrest
    simp only [skipComma, peek_eq h, ok_bind, hrest, List.head?_cons, if_true,
      bump_cons hshort h hrest]
    rfl
  · rename_i hrest
    simp only [skipComma, peek_eq h, ok_bind, if_neg (head?_ne_some hrest)]
    rfl

/-- **A parameter is read without a trap.** -/
theorem readParameter_eq (h : c.StandsIn source) :
    readParameter source c.position = .ok ((Clause.readParameter c).map located) := by
  have hkeyEnd : (Clause.skipUntil Clause.endsKey c).StandsIn source := h.skipWhile _
  have hvalue := readOptionalValue_eq hshort hkeyEnd
  simp only [readParameter, takeUntil_eq hshort h, ok_bind, Clause.readParameter]
  by_cases hkey : Clause.textUntil Clause.endsKey c = []
  · rw [if_pos hkey]
    exact if_pos hkey
  · rw [if_neg hkey]
    refine (if_neg hkey).trans ?_
    rw [hvalue, ok_bind]
    cases hread : Clause.readOptionalValue (Clause.skipUntil Clause.endsKey c) with
    | error e => rfl
    | ok r =>
      obtain ⟨w, hw⟩ := exists_passes_readOptionalValue hread
      have hcomma := skipComma_eq hshort (hkeyEnd.passes hw)
      simp only [Except.map, located, hcomma, ok_bind]
      rfl

/-- A pass over empty segments is done, or has read a comma and goes on behind it. -/
theorem segmentPass_cases (h : c.StandsIn source) :
    segmentPass source c.position =
      .ok (.done ((c.skipWhile separates).rest.head?, (c.skipWhile separates).position)) ∨
    ∃ d : Cursor, segmentPass source c.position = .ok (.again d.position) ∧ d.StandsIn source ∧
      d.rest.length < c.rest.length ∧ d.skipWhile separates = c.skipWhile separates := by
  have hblanks := h.skipBlanks
  simp only [segmentPass, skipBlanks_eq hshort h, peek_eq hblanks, ok_bind]
  rcases separates_cases c with ⟨p, hskip, hend⟩ | ⟨p, rest, hskip, hagain⟩ |
    ⟨p, ch, rest, hskip, hcomma, hend⟩
  · left
    rw [hskip, hend]
    rfl
  · right
    have hlength := c.length_skipBlanks_le
    rw [hskip] at hblanks hlength
    refine ⟨⟨p.advance ',', rest⟩, ?_, hblanks.advance rfl, hlength, hagain.symm⟩
    have hbump : bump source p = _ := bump_cons hshort hblanks rfl
    simp only [hskip, List.head?_cons, if_true, hbump]
    rfl
  · left
    rw [hskip, hend]
    simp only [List.head?_cons, if_neg hcomma]
    rfl

/-- **A pass over empty segments that goes on has read at least one character.** -/
theorem column_lt_of_segmentPass (h : c.StandsIn source) {q : Position}
    (hpass : segmentPass source c.position = .ok (.again q)) : c.position.column < q.column := by
  rcases segmentPass_cases hshort h with hdone | ⟨d, hagain, hd, hless, -⟩
  · rw [hdone] at hpass
    cases hpass
  · rw [hagain] at hpass
    obtain rfl := Pass.again.inj (Except.ok.inj hpass)
    exact h.column_lt hd hless

/-- Empty segments are passed without a trap. -/
theorem skipSegments_eq (h : c.StandsIn source) :
    skipSegments source c.position =
      .ok ((c.skipWhile separates).rest.head?, (c.skipWhile separates).position) := by
  refine loop_eq Cursor.position id (fun _ => rfl)
    (fun c => ((c.skipWhile separates).rest.head?, (c.skipWhile separates).position)) ?_ c h
  intro c (h : c.StandsIn source)
  rcases segmentPass_cases hshort h with hdone | ⟨d, hagain, hd, hless, hresult⟩
  · exact .inl hdone
  · exact .inr ⟨d, hagain, hd, hless, by rw [hresult]⟩

/-- What a cursor has before it when all empty segments are passed: nothing, or a parameter. -/
theorem nextParameter_eq (h : c.StandsIn source) :
    nextParameter source c.position =
      .ok (match (c.skipWhile separates).rest with
        | [] => .ok none
        | _ :: _ => (Clause.readParameter (c.skipWhile separates)).map fun r => some (located r)) := by
  have hread := readParameter_eq hshort (h.skipWhile separates)
  simp only [nextParameter, skipSegments_eq hshort h, ok_bind]
  cases hrest : (c.skipWhile separates).rest with
  | nil => rfl
  | cons ch rest =>
    simp only [List.head?_cons, hread, ok_bind]
    cases Clause.readParameter (c.skipWhile separates) <;> rfl

/-- **A call that gives a parameter has read at least one character.** -/
theorem column_lt_of_nextParameter (h : c.StandsIn source) {p : Parameter} {q : Position}
    (hnext : nextParameter source c.position = .ok (.ok (some (p, q)))) :
    c.position.column < q.column := by
  have hless := Cursor.length_skipWhile_le separates c
  have hstands : (c.skipWhile separates).StandsIn source := h.skipWhile _
  rw [nextParameter_eq hshort h] at hnext
  split at hnext
  · cases hnext
  · cases hread : Clause.readParameter (c.skipWhile separates) with
    | error e =>
      rw [hread] at hnext
      cases hnext
    | ok r =>
      rw [hread] at hnext
      obtain ⟨-, rfl⟩ := Prod.mk.inj (Option.some.inj (Except.ok.inj (Except.ok.inj hnext)))
      obtain ⟨w, hw⟩ := exists_passes_readParameter hread
      have hshorter := Clause.length_readParameter_lt hread
      exact h.column_lt (hstands.passes hw) (Nat.lt_of_lt_of_le hshorter hless)

/-- A pass of the splitter is done, or has read a parameter and goes on behind it. -/
theorem splitPass_cases (h : c.StandsIn source) (read : List Parameter) :
    splitPass source (read, c.position) = .ok (.done (Clause.splitFrom read c)) ∨
    ∃ p d, splitPass source (read, c.position) = .ok (.again (p :: read, d.position)) ∧
      d.StandsIn source ∧ d.rest.length < c.rest.length ∧
      Clause.splitFrom (p :: read) d = Clause.splitFrom read c := by
  have hless := Cursor.length_skipWhile_le separates c
  have hhead := c.head_skipWhile separates
  have hstands : (c.skipWhile separates).StandsIn source := h.skipWhile _
  simp only [splitPass, nextParameter_eq hshort h, ok_bind, ← splitFrom_skipWhile_separates read c]
  -- from here on only the cursor behind the empty segments matters
  generalize c.skipWhile separates = d at hless hhead hstands
  obtain ⟨start, cs⟩ := d
  cases cs with
  | nil =>
    left
    rw [Clause.splitFrom_of_nil read rfl]
    rfl
  | cons ch rest =>
    obtain ⟨hblank, hcomma⟩ := not_isBlank_of_separates (hhead ch rfl)
    have hstay : (⟨start, ch :: rest⟩ : Cursor).skipBlanks = ⟨start, ch :: rest⟩ :=
      Cursor.skipWhile_eq_self (by simpa using hblank)
    cases hread : Clause.readParameter ⟨start, ch :: rest⟩ with
    | error e =>
      left
      rw [Clause.splitFrom_of_cons read hstay hcomma, hread]
      rfl
    | ok r =>
      right
      obtain ⟨w, hw⟩ := exists_passes_readParameter hread
      refine ⟨r.1, r.2, rfl, hstands.passes hw, ?_, ?_⟩
      · exact Nat.lt_of_lt_of_le (Clause.length_readParameter_lt hread) hless
      · rw [Clause.splitFrom_of_cons read hstay hcomma, hread]

end Standing

/-- A clause that is not refused for its bytes has no more characters than that. -/
theorem length_le_of_bytes_le {text : String} (h : text.utf8ByteSize ≤ maxClauseBytes) :
    text.length ≤ maxClauseBytes := by
  have hbytes := Text.length_le_bytes text.toList
  rw [Text.bytes_toList, String.length_toList] at hbytes
  omega

/-- **A clause is split without a trap.** -/
theorem split_eq (text : String) : split text = .ok (Clause.split text) := by
  rw [split, Clause.split, Text.bytes_toList]
  by_cases hlong : maxClauseBytes < text.utf8ByteSize
  · simp only [if_pos hlong]
  · simp only [if_neg hlong]
    have hshort := length_le_of_bytes_le (Nat.le_of_not_lt hlong)
    refine loop_eq (fun t : List Parameter × Cursor => (t.1, t.2.position)) Prod.snd (fun _ => rfl)
      (fun t => Clause.splitFrom t.1 t.2) ?_ ([], .ofList text.toList)
      (Cursor.standsIn_ofList text)
    rintro ⟨read, c⟩ h
    rcases splitPass_cases hshort h read with hdone | ⟨p, d, hagain, hd, hless, hresult⟩
    · exact .inl hdone
    · exact .inr ⟨(p :: read, d), hagain, hd, hless, hresult⟩

end Checked
end ImageCheck
