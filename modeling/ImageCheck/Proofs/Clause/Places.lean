/-
# Places in a clause

`SPEC_FULL` §4.6; the positions of `Parameter` and `SplitError`.

Every parameter of a clause keeps the place where its name begins, and every failure to
split names the place of what is wrong. These places are taken at different moments of
the reading; here they are compared with the clause itself.

| outcome | what stands at its place |
| --- | --- |
| a parameter | its name |
| a missing name | the colon that has no name before it |
| a quote that is never closed | that quote, behind a colon and blanks |
| stray text behind a quoted value | that text, without the blanks around it |

For the parameters this is read off the grammar, segment by segment
(`Segments.found_key`, `Segments.pairwise_offset`). For the failures `Faults` is the
table: it takes the clause apart into what stands before the fault, the fault and the
rest, and `exists_faults_of_split` says that every failure but that of the length
has such a place.
-/

import ImageCheck.Proofs.Clause.Broken
import ImageCheck.Proofs.Text.Place

namespace ImageCheck

namespace Clause

/-! ### Parameters -/

section Parameters

variable {text : String} {start : Position} {w : List Char} {p : Parameter}
  {ps : List Parameter}

/-- A parameter begins with its name. -/
theorem ParameterText.key_prefix {key value : List Char} (h : ParameterText w key value) :
    key <+: w := by
  cases h with
  | flag _ => exact Text.trimEnd_prefix_self w
  | pair _ _ _ => exact (Text.trimEnd_prefix_self _).trans (List.prefix_append _ _)

/-- A parameter has a name. -/
theorem ParameterText.key_ne_nil {key value : List Char} (h : ParameterText w key value) :
    key ≠ [] := by
  cases h with
  | flag hkey => exact hkey.trimEnd_ne_nil
  | pair hkey _ _ => exact hkey.trimEnd_ne_nil

/-- The name of a parameter stands at its place, whatever follows the segment. -/
theorem Segment.found_key (h : Segment start w (some p)) {more : List Char}
    (hstands : Cursor.StandsIn text ⟨start, w ++ more⟩) :
    p.key ≠ "" ∧ Found text p.key.toList p.position := by
  cases h with
  | @parameter blanks w key value _ hparameter =>
    rw [List.append_assoc] at hstands
    have hname := hstands.passes (Cursor.passes_append start blanks (w ++ more))
    have hbegins := hparameter.key_prefix.trans (List.prefix_append w more)
    refine ⟨mt String.ofList_eq_empty_iff.1 hparameter.key_ne_nil, ?_⟩
    rw [String.toList_ofList]
    exact hname.found hbegins

/-- The place of a parameter lies in its segment. -/
theorem Segment.offset_bounds (h : Segment start w (some p)) :
    start.offset ≤ p.position.offset ∧ p.position.offset ≤ (start.advanceBy w).offset := by
  cases h with
  | parameter _ _ =>
    rw [Position.advanceBy_append]
    exact ⟨Position.offset_le_advanceBy _ _, Position.offset_le_advanceBy _ _⟩

/-- Every name of a clause stands at its place. -/
theorem Segments.found_key (h : Segments start w ps)
    (hstands : Cursor.StandsIn text ⟨start, w⟩) :
    ∀ p ∈ ps, p.key ≠ "" ∧ Found text p.key.toList p.position := by
  induction h with
  | @last start w o hsegment =>
    intro p hp
    obtain rfl := Option.mem_toList.1 hp
    rw [← w.append_nil] at hstands
    exact hsegment.found_key hstands
  | @cons start w rest o ps hsegment _ ih =>
    intro p hp
    rcases List.mem_append.1 hp with hp | hp
    · obtain rfl := Option.mem_toList.1 hp
      exact hsegment.found_key hstands
    · have hcomma := hstands.passes (Cursor.passes_append start w (',' :: rest))
      exact ih (hcomma.advance rfl) p hp

/-- No name stands before the clause begins. -/
theorem Segments.offset_le (h : Segments start w ps) :
    ∀ p ∈ ps, start.offset ≤ p.position.offset := by
  induction h with
  | last hsegment =>
    intro p hp
    obtain rfl := Option.mem_toList.1 hp
    exact hsegment.offset_bounds.1
  | @cons start w rest o ps hsegment _ ih =>
    intro p hp
    rcases List.mem_append.1 hp with hp | hp
    · obtain rfl := Option.mem_toList.1 hp
      exact hsegment.offset_bounds.1
    · have hle := ih p hp
      have hw := start.offset_le_advanceBy w
      simp only [Position.advance] at hle
      omega

/-- Parameters stand one after another: the comma between them takes up a byte. -/
theorem Segments.pairwise_offset (h : Segments start w ps) :
    ps.Pairwise fun p q => p.position.offset < q.position.offset := by
  induction h with
  | @last _ _ o _ => cases o <;> simp
  | @cons start w rest o ps hsegment hrest ih =>
    cases o with
    | none => exact ih
    | some p =>
      refine List.pairwise_cons.2 ⟨fun q hq => ?_, ih⟩
      have hp := hsegment.offset_bounds.2
      have hq := hrest.offset_le q hq
      have hcomma := (',' : Char).utf8Size_pos
      simp only [Position.advance] at hq
      omega

end Parameters

/-! ### Failures -/

/-- What a failure to split is about: the characters `fault` behind `before` and in front of
`after`. -/
inductive Faults : SplitError → List Char → List Char → List Char → Prop
  | emptyKey {before after : List Char} :
      Faults (.emptyKey (Position.start.advanceBy before)) before [':'] after
  /-- The quote opens a value, and what follows does not close it. -/
  | unterminatedQuote {front gap after : List Char} (hgap : AllBlank gap)
      (hafter : Unclosed after) :
      Faults (.unterminatedQuote (Position.start.advanceBy (front ++ ':' :: gap)))
        (front ++ ':' :: gap) ['"'] after
  /-- The text has blanks neither at its start nor at its end. -/
  | unexpectedAfterQuote {before fault after : List Char} (hne : fault ≠ [])
      (hcomma : ',' ∉ fault) (hhead : ∀ ch ∈ fault.head?, Text.isBlank ch = false)
      (hlast : ∀ ch ∈ fault.getLast?, Text.isBlank ch = false) :
      Faults (.unexpectedAfterQuote (String.ofList fault) (Position.start.advanceBy before))
        before fault after

section Failures

variable {text : String} {start : Position} {front w : List Char} {e : SplitError}

/-- Stray text without the blanks at its end. -/
theorem Stray.faults {stray : List Char} (h : Stray stray) (before rest : List Char) :
    ∃ after, stray ++ rest = Text.trimEnd stray ++ after ∧
      Faults (.unexpectedAfterQuote (String.ofList (Text.trimEnd stray))
        (Position.start.advanceBy before)) before (Text.trimEnd stray) after := by
  obtain ⟨blanks, hstray, hblanks, hlast⟩ := Text.exists_blanks_trimEnd stray
  obtain ⟨ch, hch, hblank⟩ := h.head
  have hbegins := Text.trimEnd_prefix_self stray
  have hne : Text.trimEnd stray ≠ [] := by
    intro hnil
    rw [hnil, List.nil_append] at hstray
    rw [hblanks ch (hstray ▸ List.mem_of_head? hch)] at hblank
    cases hblank
  refine ⟨blanks ++ rest, ?_, .unexpectedAfterQuote hne ?_ ?_ hlast⟩
  · rw [← List.append_assoc, ← hstray]
  · exact fun hcomma => h.comma (hbegins.subset hcomma)
  · intro d hd
    obtain ⟨more, hmore⟩ := hbegins
    rw [← hmore, List.head?_append, Option.mem_def.1 hd, Option.some_or] at hch
    rwa [Option.some.inj hch]

/-- A broken value, behind its colon. -/
theorem BrokenValue.exists_faults (h : BrokenValue start w e)
    (hstart : start = Position.start.advanceBy (front ++ [':'])) :
    ∃ before fault after, front ++ ':' :: w = before ++ (fault ++ after) ∧
      Faults e before fault after := by
  subst hstart
  cases h with
  | @unterminated gap w hgap hw =>
    rw [← Position.advanceBy_append, List.append_assoc]
    exact ⟨_, _, w, by simp, .unterminatedQuote hgap hw⟩
  | @unexpected gap w v blanks stray rest _ _ _ hstray _ =>
    rw [← Position.advanceBy_append]
    obtain ⟨after, hafter, hfaults⟩ :=
      hstray.faults (front ++ [':'] ++ (gap ++ '"' :: (w ++ '"' :: blanks))) rest
    exact ⟨_, _, after, by simp [hafter], hfaults⟩

/-- What is wrong with a broken parameter stands at the place of its failure. -/
theorem BrokenParameter.exists_faults (h : BrokenParameter start w e)
    (hstart : start = Position.start.advanceBy front) :
    ∃ before fault after, front ++ w = before ++ (fault ++ after) ∧
      Faults e before fault after := by
  subst hstart
  cases h with
  | @emptyKey rest => exact ⟨front, [':'], rest, rfl, .emptyKey⟩
  | @value key rest _ _ hvalue =>
    have hcolon : ((Position.start.advanceBy front).advanceBy key).advance ':' =
        Position.start.advanceBy (front ++ key ++ [':']) := by
      simp [Position.advanceBy]
    obtain ⟨before, fault, after, hsplit, hfaults⟩ := hvalue.exists_faults hcolon
    exact ⟨before, fault, after, by rw [← hsplit, List.append_assoc], hfaults⟩

/-- A broken clause has a place where it is broken; `front` is what has been passed. -/
theorem Broken.exists_faults (h : Broken start w e)
    (hstart : start = Position.start.advanceBy front) :
    ∃ before fault after, front ++ w = before ++ (fault ++ after) ∧
      Faults e before fault after := by
  induction h generalizing front with
  | @here start blanks w e _ hparameter =>
    rw [← List.append_assoc]
    refine hparameter.exists_faults ?_
    rw [hstart, Position.advanceBy_append]
  | @later start w rest _ e _ _ ih =>
    have hcomma : (start.advanceBy w).advance ',' =
        Position.start.advanceBy (front ++ w ++ [',']) := by
      simp [hstart, Position.advanceBy]
    obtain ⟨before, fault, after, hsplit, hfaults⟩ := ih hcomma
    exact ⟨before, fault, after, by rw [← hsplit]; simp, hfaults⟩

/-- **A failure to split has a place in the clause**, unless the clause is too long to be looked
at. -/
theorem exists_faults_of_split (h : split text = .error e) :
    (e = .clauseTooLong text.utf8ByteSize ∧ 65536 < text.utf8ByteSize) ∨
      text.utf8ByteSize ≤ 65536 ∧ ∃ before fault after,
        text.toList = before ++ (fault ++ after) ∧ Faults e before fault after := by
  by_cases hbytes : text.utf8ByteSize ≤ 65536
  · have hbroken := (split_eq_error_iff_broken hbytes).1 h
    obtain ⟨before, fault, after, htext, hfaults⟩ :=
      hbroken.exists_faults (show Position.start = Position.start.advanceBy [] from rfl)
    exact .inr ⟨hbytes, before, fault, after, htext, hfaults⟩
  · have hlong := Nat.lt_of_not_le hbytes
    rw [split_of_long hlong] at h
    exact .inl ⟨(Except.error.inj h).symm, hlong⟩

/-- A clause is refused for its length exactly if it has more than 65536 bytes. -/
theorem split_eq_clauseTooLong_iff :
    (∃ length, split text = .error (.clauseTooLong length)) ↔ 65536 < text.utf8ByteSize := by
  constructor
  · rintro ⟨length, h⟩
    rcases exists_faults_of_split h with ⟨-, hlong⟩ | ⟨-, before, fault, after, -, hfaults⟩
    · exact hlong
    · cases hfaults
  · exact fun h => ⟨_, split_of_long h⟩

/-- Only a clause that is too long fails without a span. -/
theorem span?_eq_none_iff : e.span? = none ↔ ∃ length, e = .clauseTooLong length := by
  cases e <;> simp [SplitError.span?]

end Failures

/-- What a clause says at the places that `split` names: for an outcome, the name, the character or
the text that stands there. -/
structure Placed (text : String) (outcome : Except SplitError (List Parameter)) : Prop where
  /-- The places of parameters increase. -/
  ordered : ∀ ps, outcome = .ok ps →
    ps.Pairwise fun p q => p.position.offset < q.position.offset
  /-- At the place of a parameter the clause goes on with its name. -/
  key : ∀ ps, outcome = .ok ps → ∀ p ∈ ps, p.key ≠ "" ∧ Found text p.key.toList p.position
  /-- A missing name is noticed at a colon. -/
  emptyKey : ∀ p, outcome = .error (.emptyKey p) → Found text [':'] p
  /-- A quote that is never closed is named by the quote that opens it. -/
  unterminatedQuote : ∀ p, outcome = .error (.unterminatedQuote p) →
    Found text ['"'] p ∧ ∃ front gap after, text.toList = front ++ ':' :: (gap ++ '"' :: after) ∧
      AllBlank gap ∧ Unclosed after ∧ p = Position.start.advanceBy (front ++ ':' :: gap)
  /-- Stray text is quoted as it stands in the clause, without the blanks around it. -/
  unexpectedAfterQuote : ∀ stray p, outcome = .error (.unexpectedAfterQuote stray p) →
    stray ≠ "" ∧ ',' ∉ stray.toList ∧
      (∀ ch ∈ stray.toList.head?, Text.isBlank ch = false) ∧
      (∀ ch ∈ stray.toList.getLast?, Text.isBlank ch = false) ∧
      Found text stray.toList p ∧
      ∃ span, SplitError.span? (.unexpectedAfterQuote stray p) = some span ∧
        span.slice text.toList = some stray.toList
  /-- Only the length of a clause is refused without a place, and only above the bound. -/
  clauseTooLong : (∃ length, outcome = .error (.clauseTooLong length)) ↔
    65536 < text.utf8ByteSize
  /-- Every other failure has a span. -/
  span : ∀ e, outcome = .error e → (e.span? = none ↔ ∃ length, e = .clauseTooLong length)

/-- **Places point at the right text.** Whatever `split` makes of a clause, the places it names lie
between characters of the clause, with the column that counts the characters before them, and what
the outcome says about a place is what stands there. -/
theorem placed_split (text : String) : Placed text (split text) where
  ordered ps h :=
    ((split_eq_ok_iff_segments (bytes_le_of_split_eq_ok h)).1 h).pairwise_offset
  key ps h :=
    ((split_eq_ok_iff_segments (bytes_le_of_split_eq_ok h)).1 h).found_key
      (Cursor.standsIn_ofList text)
  emptyKey p h := by
    rcases exists_faults_of_split h with ⟨hlong, -⟩ | ⟨-, before, fault, after, htext, hfaults⟩
    · cases hlong
    · cases hfaults
      exact found_of_eq_append htext
  unterminatedQuote p h := by
    rcases exists_faults_of_split h with ⟨hlong, -⟩ | ⟨-, before, fault, after, htext, hfaults⟩
    · cases hlong
    · cases hfaults with
      | @unterminatedQuote front gap _ hgap hafter =>
        exact ⟨found_of_eq_append htext, front, gap, after, by simpa using htext, hgap, hafter, rfl⟩
  unexpectedAfterQuote stray p h := by
    rcases exists_faults_of_split h with ⟨hlong, -⟩ | ⟨-, before, fault, after, htext, hfaults⟩
    · cases hlong
    · cases hfaults with
      | unexpectedAfterQuote hne hcomma hhead hlast =>
        have hfound := found_of_eq_append htext
        rw [String.toList_ofList]
        refine ⟨mt String.ofList_eq_empty_iff.1 hne, hcomma, hhead, hlast, hfound, _, rfl, ?_⟩
        rw [String.toList_ofList]
        exact hfound.slice
  clauseTooLong := split_eq_clauseTooLong_iff
  span _ _ := span?_eq_none_iff

/-- Bytes and characters are counted apart, and a comma inside quotes is passed over. -/
example : split "é: \"a,b\", ß" = .ok [⟨"é", "a,b", ⟨0, 1⟩⟩, ⟨"ß", "", ⟨11, 11⟩⟩] := by
  decide +kernel

end Clause
end ImageCheck
