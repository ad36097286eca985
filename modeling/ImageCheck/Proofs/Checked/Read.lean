/-
# Reading values without a trap

`SPEC_FULL` §4.2, §4.3 and §4.5; `read_token`, `expect_word`, `expect_number`,
`expect_end`, `parse_rect` and `parse_image_filter`, function by function.

The readers of a value as checked computations: tokens, numbers, rectangles and filters.
On a value that is no longer than a clause they never trap, and give what `Value.rect`
and `Value.filter` give: `rect_eq`, `filter_eq`.

A failure to read says where. Its span is worked out from the place, so it is checked
too: the text that the failure quotes stands at its place (`ReadError.PlacedIn`), and
a span that is found in a short text is built without a trap (`readSpan_eq`).
-/

import ImageCheck.Compile.Value
import ImageCheck.Proofs.Checked.Basic

namespace ImageCheck

/-- What a failure to read quotes stands at its place. -/
def ReadError.PlacedIn (value : String) : ReadError → Prop
  | invalidNumber text position => Found value text.toList position
  | trailingContent text position => Found value text.toList position
  | tokenTooLong length position => ∃ token, token.length = length ∧ Found value token position
  | missingWord _ => True
  | missingNumber _ => True

/-- A failure of a value is placed in the value, if it has a place. -/
def CompileError.PlacedIn (value : String) : CompileError → Prop
  | read cause => cause.PlacedIn value
  | split _ => False
  | _ => True

namespace Checked

section Source

variable (source : String)

/-- The next token, unless it is missing or too long, and the place after it. -/
def readToken (missing : Position → ReadError) (p : Position) :
    Checked (Except ReadError Token × Position) := do
  let start ← skipWhile source Text.isBlank p
  let rest ← remaining source start
  let run := rest.takeWhile Cursor.inToken
  let stop ← advanceBy start run
  if run = [] then return (.error (missing stop), stop)
  else if maxTokenLength < run.length then return (.error (.tokenTooLong run.length start), stop)
  else
    let text ← cut source start stop
    return (.ok ⟨start, text⟩, stop)

/-- Reads a word: any token. -/
def word (p : Position) : Checked (Except ReadError String × Position) := do
  match ← readToken source .missingWord p with
  | (.error e, q) => return (.error e, q)
  | (.ok t, q) => return (.ok (String.ofList t.text), q)

/-- Reads a number. -/
def number (p : Position) : Checked (Except ReadError Binary64 × Position) := do
  match ← readToken source .missingNumber p with
  | (.error e, q) => return (.error e, q)
  | (.ok t, q) => return (t.number, q)

/-- Accepts that only blanks are left. -/
def finish (p : Position) : Checked (Except ReadError Unit × Position) := do
  let p ← skipWhile source Text.isBlank p
  let rest ← remaining source p
  if rest.any fun ch => !Text.isBlank ch then
    return (.error (.trailingContent (String.ofList (Text.trimEnd rest)) p), p)
  else return (.ok (), p)

/-- Reads `n` numbers, one after another. -/
def numbers : (n : Nat) → Position → Checked (Except ReadError (Vector Binary64 n × Position))
  | 0, p => return .ok (.ofFn Fin.elim0, p)
  | n + 1, p => do
    match ← numbers n p with
    | .error e => return .error e
    | .ok (xs, p) =>
      match ← number source p with
      | (.error e, _) => return .error e
      | (.ok x, p) => return .ok (xs.push x, p)

/-- The numbers of a text that holds exactly `n` of them. -/
def readNumbers (n : Nat) : Checked (Except ReadError (Vector Binary64 n)) := do
  match ← numbers source n .start with
  | .error e => return .error e
  | .ok (xs, p) =>
    match ← finish source p with
    | (.error e, _) => return .error e
    | (.ok (), _) => return .ok xs

end Source

/-- The rectangle of four numbers. -/
def rect (value : String) : Checked (Except CompileError Rect) := do
  match ← readNumbers value 4 with
  | .ok xs =>
    return .ok ⟨(xs.get 0).truncate32, (xs.get 1).truncate32, (xs.get 2).truncate32,
      (xs.get 3).truncate32⟩
  | .error e => return .error (.read e)

/-- The filter of a name and a number. -/
def filter (value : String) : Checked (Except CompileError FilterOp) := do
  match ← word value .start with
  | (.error e, _) => return .error (.read e)
  | (.ok name, p) =>
    match ← number value p with
    | (.error e, _) => return .error (.read e)
    | (.ok x, p) =>
      match FilterKind.ofName? name with
      | none => return .error (.unknownFilter name)
      | some kind =>
        match ← finish value p with
        | (.error e, _) => return .error (.read e)
        | (.ok (), _) => return .ok ⟨kind, x.truncate32⟩

/-- The span of a text that begins at `start`. -/
def covering (start : Position) (cs : List Char) : Checked Span := do
  newSpan start (← advanceBy start cs)

/-- The part of the value that a failure to read is about. -/
def readSpan : ReadError → Checked Span
  | .missingWord position => return .point position
  | .missingNumber position => return .point position
  | .invalidNumber text position => covering position text.toList
  | .tokenTooLong length position =>
    if position.column + length < 2 ^ 32 then
      newSpan position ⟨position.offset, position.column + length⟩
    else .error .overflow
  | .trailingContent text position => covering position text.toList

/-! ### What a failure quotes -/

/-- A token that passes the check is taken as it is. -/
theorem eq_text_of_check {t : Token} {missing : Position → ReadError} {text : List Char}
    (h : t.check missing = .ok text) : text = t.text := by
  unfold Token.check at h
  split_ifs at h
  exact (Except.ok.inj h).symm

section Placed

variable {source : String} {c : Cursor} {e : ReadError}

/-- The next token of a cursor stands at its place in the text. -/
theorem found_token (h : c.StandsIn source) : Found source c.token.text c.token.start := by
  refine h.skipBlanks.found ?_
  exact List.takeWhile_prefix _

/-- A token that does not pass the check is quoted at its place. -/
theorem placedIn_check (h : c.StandsIn source) (missing : Position → ReadError)
    (hmissing : ∀ p, (missing p).PlacedIn source) (he : c.token.check missing = .error e) :
    e.PlacedIn source := by
  unfold Token.check at he
  split_ifs at he
  · obtain rfl := Except.error.inj he
    exact hmissing _
  · obtain rfl := Except.error.inj he
    exact ⟨_, rfl, found_token h⟩

/-- A failure to read a word is placed in the text. -/
theorem placedIn_word (h : c.StandsIn source) (he : c.word.1 = .error e) : e.PlacedIn source := by
  rw [Cursor.word] at he
  cases hcheck : c.token.check .missingWord with
  | error e' =>
    rw [hcheck] at he
    obtain rfl := Except.error.inj he
    exact placedIn_check h .missingWord (fun _ => trivial) hcheck
  | ok text =>
    rw [hcheck] at he
    cases he

/-- A failure to read a number is placed in the text. -/
theorem placedIn_number (h : c.StandsIn source) (he : c.number.1 = .error e) :
    e.PlacedIn source := by
  have hinvalid : (ReadError.invalidNumber (String.ofList c.token.text) c.token.start).PlacedIn
      source := by
    rw [ReadError.PlacedIn, String.toList_ofList]
    exact found_token h
  rw [Cursor.number, Token.number] at he
  cases hcheck : c.token.check .missingNumber with
  | error e' =>
    rw [hcheck] at he
    obtain rfl := Except.error.inj he
    exact placedIn_check h .missingNumber (fun _ => trivial) hcheck
  | ok text =>
    rw [hcheck, eq_text_of_check hcheck] at he
    simp only at he
    split_ifs at he
    · split at he
      · split_ifs at he
        obtain rfl := Except.error.inj he
        exact hinvalid
      · obtain rfl := Except.error.inj he
        exact hinvalid
    · obtain rfl := Except.error.inj he
      exact hinvalid

/-- Content that is too much is quoted at its place. -/
theorem placedIn_finish (h : c.StandsIn source) (he : c.finish.1 = .error e) :
    e.PlacedIn source := by
  simp only [Cursor.finish] at he
  split_ifs at he
  obtain rfl := Except.error.inj he
  rw [ReadError.PlacedIn, String.toList_ofList]
  exact h.skipBlanks.found (Text.trimEnd_prefix_self _)

/-- Reading numbers ends at a cursor in the text, or with a failure that is placed there. -/
theorem standsIn_or_placedIn_numbers (h : c.StandsIn source) (n : Nat) :
    match c.numbers n with
    | .ok r => r.2.StandsIn source
    | .error e => e.PlacedIn source := by
  induction n with
  | zero => exact h
  | succ n ih =>
    rw [Cursor.numbers]
    cases hxs : c.numbers n with
    | error e =>
      rw [hxs] at ih
      exact ih
    | ok r =>
      rw [hxs] at ih
      have hd : r.2.number.2.StandsIn source := Cursor.StandsIn.afterToken ih
      have he (e : ReadError) : r.2.number.1 = .error e → e.PlacedIn source := placedIn_number ih
      simp only
      generalize r.2.number = answer at hd he
      obtain ⟨e | x, d⟩ := answer
      · exact he e rfl
      · exact hd

/-- A failure to read numbers is placed in the text. -/
theorem placedIn_readNumbers {n : Nat} (he : ImageCheck.readNumbers n source = .error e) :
    e.PlacedIn source := by
  have hnumbers := standsIn_or_placedIn_numbers (Cursor.standsIn_ofList source) n
  rw [ImageCheck.readNumbers] at he
  cases hxs : (Cursor.ofList source.toList).numbers n with
  | error e' =>
    rw [hxs] at he hnumbers
    obtain rfl := Except.error.inj he
    exact hnumbers
  | ok r =>
    rw [hxs] at he hnumbers
    simp only at he
    cases hfinish : r.2.finish.1 with
    | error e' =>
      rw [hfinish] at he
      obtain rfl := Except.error.inj he
      exact placedIn_finish hnumbers hfinish
    | ok _ =>
      rw [hfinish] at he
      cases he

/-- A failure to read a rectangle is placed in its value. -/
theorem placedIn_rect {e : CompileError} (he : Value.rect source = .error e) :
    e.PlacedIn source := by
  unfold Value.rect at he
  cases hread : ImageCheck.readNumbers 4 source with
  | error cause =>
    rw [hread] at he
    obtain rfl := Except.error.inj he
    exact placedIn_readNumbers hread
  | ok xs =>
    rw [hread] at he
    cases he

/-- A failure to read a filter is placed in its value, if it has a place. -/
theorem placedIn_filter {e : CompileError} (he : Value.filter source = .error e) :
    e.PlacedIn source := by
  have h := Cursor.standsIn_ofList source
  have hafter : (Cursor.ofList source.toList).word.2.StandsIn source :=
    h.afterToken
  have hword (e : ReadError) :
      (Cursor.ofList source.toList).word.1 = .error e → e.PlacedIn source :=
    placedIn_word h
  rw [Value.filter] at he
  generalize (Cursor.ofList source.toList).word = answer at he hafter hword
  obtain ⟨cause | name, c⟩ := answer
  · obtain rfl := Except.error.inj he
    exact hword cause rfl
  · have hrest : c.number.2.StandsIn source := hafter.afterToken
    have hnumber (e : ReadError) : c.number.1 = .error e → e.PlacedIn source :=
      placedIn_number hafter
    simp only at he
    generalize c.number = answer at he hrest hnumber
    obtain ⟨cause | x, d⟩ := answer
    · obtain rfl := Except.error.inj he
      exact hnumber cause rfl
    · simp only at he
      split at he
      · obtain rfl := Except.error.inj he
        trivial
      · split at he
        · rename_i cause hfinish
          obtain rfl := Except.error.inj he
          exact placedIn_finish hrest hfinish
        · cases he

end Placed

/-! ### No trap -/

section Standing

variable {source : String} (hshort : source.length ≤ maxClauseBytes) {c : Cursor}

include hshort

/-- A token is read without a trap, also one that does not pass the check. -/
theorem readToken_eq (missing : Position → ReadError) (h : c.StandsIn source) :
    readToken source missing c.position =
      .ok ((c.token.check missing).map fun _ => c.token, c.afterToken.position) := by
  have hblanks := h.skipBlanks
  have hskip := skipBlanks_eq hshort h
  have hrun : c.skipBlanks.Passes c.token.text c.afterToken := c.skipBlanks.passes_skipWhile _
  have htext : c.skipBlanks.rest.takeWhile Cursor.inToken = c.token.text := rfl
  simp only [readToken, hskip, remaining_eq hblanks, htext, advanceBy_eq hshort hblanks hrun,
    cut_eq hblanks hrun, ok_bind, Token.check]
  split_ifs with hnil hlong
  · have hstop : c.afterToken.position = c.token.start := by
      rw [hrun.position, hnil]
      rfl
    rw [hstop]
    rfl
  · rfl
  · rfl

/-- A word is read without a trap. -/
theorem word_eq (h : c.StandsIn source) : word source c.position = .ok (located c.word) := by
  simp only [word, readToken_eq hshort _ h, ok_bind, located, Cursor.word]
  cases hcheck : c.token.check .missingWord with
  | error e => rfl
  | ok text =>
    rw [eq_text_of_check hcheck]
    rfl

/-- A number is read without a trap. -/
theorem number_eq (h : c.StandsIn source) : number source c.position = .ok (located c.number) := by
  simp only [number, readToken_eq hshort _ h, ok_bind, located, Cursor.number]
  cases hcheck : c.token.check .missingNumber with
  | error e =>
    rw [Token.number, hcheck]
    rfl
  | ok text => rfl

/-- The end of a value is reached without a trap. -/
theorem finish_eq (h : c.StandsIn source) : finish source c.position = .ok (located c.finish) := by
  have hblanks := h.skipBlanks
  have hskip := skipBlanks_eq hshort h
  have hhead := c.head_skipBlanks
  simp only [finish, hskip, remaining_eq hblanks, ok_bind, located, Cursor.finish]
  cases hrest : c.skipBlanks.rest with
  | nil => rfl
  | cons ch rest =>
    rw [hrest] at hhead
    have hmore : (ch :: rest).any (fun ch => !Text.isBlank ch) = true := by
      simp [hhead ch rfl]
    simp only [hmore, if_true, reduceCtorEq, if_false]
    rfl

/-- Any number of numbers is read without a trap. -/
theorem numbers_eq (h : c.StandsIn source) (n : Nat) :
    numbers source n c.position = .ok ((c.numbers n).map located) := by
  induction n with
  | zero => rfl
  | succ n ih =>
    have hstands := standsIn_or_placedIn_numbers h n
    rw [numbers, ih, ok_bind, Cursor.numbers]
    cases hxs : c.numbers n with
    | error e => rfl
    | ok r =>
      rw [hxs] at hstands
      simp only [Except.map, located, number_eq hshort hstands, ok_bind]
      rcases r.2.number with ⟨_ | x, d⟩ <;> rfl

/-- A text of so many numbers is read without a trap. -/
theorem readNumbers_eq (n : Nat) :
    readNumbers source n = .ok (ImageCheck.readNumbers n source) := by
  have h := Cursor.standsIn_ofList source
  have hread : numbers source n .start = _ := numbers_eq hshort h n
  have hstands := standsIn_or_placedIn_numbers h n
  rw [readNumbers, ImageCheck.readNumbers, hread, ok_bind]
  cases hxs : (Cursor.ofList source.toList).numbers n with
  | error e => rfl
  | ok r =>
    rw [hxs] at hstands
    simp only [Except.map, located, finish_eq hshort hstands, ok_bind]
    rcases r.2.finish with ⟨_ | x, d⟩ <;> rfl

/-- **A rectangle is read without a trap.** -/
theorem rect_eq : rect source = .ok (Value.rect source) := by
  unfold rect Value.rect
  rw [readNumbers_eq hshort, ok_bind]
  cases ImageCheck.readNumbers 4 source <;> rfl

/-- **A filter is read without a trap.** -/
theorem filter_eq : filter source = .ok (Value.filter source) := by
  have h := Cursor.standsIn_ofList source
  have hword : word source .start = _ := word_eq hshort h
  have hafter : (Cursor.ofList source.toList).word.2.StandsIn source :=
    h.afterToken
  rw [filter, Value.filter, hword, ok_bind]
  generalize (Cursor.ofList source.toList).word = r at hafter
  obtain ⟨_ | name, c⟩ := r
  · rfl
  · have hnumber := number_eq hshort hafter
    have hrest : c.number.2.StandsIn source := hafter.afterToken
    simp only [located, hnumber, ok_bind]
    generalize c.number = r at hrest
    obtain ⟨_ | x, d⟩ := r
    · rfl
    · cases FilterKind.ofName? name with
      | none => rfl
      | some kind =>
        simp only [finish_eq hshort hrest, ok_bind, located]
        rcases d.finish with ⟨_ | _, _⟩ <;> rfl

/-- The span of a text that stands in a short value is built without a trap. -/
theorem covering_eq {cs : List Char} {p : Position} (h : Found source cs p) :
    covering p cs = .ok (.covering p cs) := by
  obtain ⟨rest, hstands⟩ := h
  have hstop : advanceBy p cs = .ok (p.advanceBy cs) :=
    advanceBy_eq hshort hstands (Cursor.passes_append p cs rest)
  rw [covering, hstop, ok_bind, newSpan, if_pos (Position.offset_le_advanceBy p cs)]
  rfl

/-- **The span of a failure is built without a trap.** -/
theorem readSpan_eq {e : ReadError} (he : e.PlacedIn source) : readSpan e = .ok e.span := by
  cases e with
  | missingWord position => rfl
  | missingNumber position => rfl
  | invalidNumber text position => exact covering_eq hshort he
  | tokenTooLong length position =>
    obtain ⟨token, rfl, rest, hstands⟩ := he
    have hcolumn := hstands.column_add_length
    have hfits : position.column + token.length < 2 ^ 32 := by
      unfold maxClauseBytes at hshort
      simp only [List.length_append] at hcolumn
      omega
    rw [readSpan, if_pos hfits, newSpan, if_pos (Nat.le_refl _)]
    rfl
  | trailingContent text position => exact covering_eq hshort he

end Standing
end Checked
end ImageCheck
