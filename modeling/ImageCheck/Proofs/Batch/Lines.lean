/-
# The lines of a clause file

`SPEC_FULL` §6: one clause per line, blank lines and `#` comments skipped;
`parse_clause_lines`.

A clause file is cut at its line feeds. `Text.IsLine` says without any cutting what line
`number` of a text is: it begins the text or stands behind a line feed, it ends before the
next line feed or with the text, and `number` counts the line feeds before it. A carriage
return right before a line feed ends the line with it.

`ClauseInput.numbered` are the clauses of a text with the numbers of their lines, before
the name of the file is put to them. Two facts about the pieces of a text carry all others:

* `Text.mem_pieces_iff`: the pieces with their numbers are the stretches between line feeds;
* `numbered_append`: the pieces of two texts joined by a line feed are those of the first,
  then those of the second, which are counted on.

Trimming makes no difference between a piece and its line (`Text.trim_dropReturn`), as the
carriage return is a blank.
-/

import ImageCheck.Batch.Input
import ImageCheck.Proofs.Value.RateGrammar

namespace ImageCheck

/-! ### Lines and pieces -/

namespace Text

/-- A new line begins behind the text. -/
def BeginsLine (before : List Char) : Prop := before = [] ∨ before.getLast? = some '\n'

/-- A line that ended with a line feed, without the carriage return that may stand before it. -/
def dropReturn (piece : List Char) : List Char :=
  if piece.getLast? = some '\r' then piece.dropLast else piece

/-- Line `number` of a text, counted from one. -/
inductive IsLine (content : List Char) : Nat → List Char → Prop
  | fed {before piece after : List Char} (hbefore : BeginsLine before) (hpiece : '\n' ∉ piece)
      (hcontent : content = before ++ (piece ++ '\n' :: after)) :
      IsLine content (1 + before.count '\n') (dropReturn piece)
  | last {before line : List Char} (hbefore : BeginsLine before) (hline : '\n' ∉ line)
      (hcontent : content = before ++ line) :
      IsLine content (1 + before.count '\n') line

section Pieces

variable {content piece : List Char} {number : Nat}

/-- A text is one line, or a line, a line feed and a text. -/
theorem lines_induction {motive : List Char → Prop}
    (last : ∀ line, '\n' ∉ line → motive line)
    (fed : ∀ line rest, '\n' ∉ line → motive rest → motive (line ++ '\n' :: rest))
    (content : List Char) : motive content := by
  induction hn : content.length using Nat.strongRecOn generalizing content with
  | ind n ih =>
    by_cases hfeed : '\n' ∈ content
    · obtain ⟨line, rest, rfl, hline⟩ := List.eq_append_cons_of_mem hfeed
      refine fed line rest hline (ih _ ?_ rest rfl)
      simp only [List.length_append, List.length_cons] at hn
      omega
    · exact last content hfeed

/-- A text has one piece more than it has line feeds. -/
theorem length_pieces (content : List Char) :
    (content.splitOn '\n').length = content.count '\n' + 1 := by
  induction content using lines_induction with
  | last line hline => rw [List.splitOn_eq_singleton hline, List.count_eq_zero.2 hline]; rfl
  | fed line rest hline ih =>
    rw [List.splitOn_append_cons_self_of_not_mem hline, List.length_cons, ih, List.count_append,
      List.count_eq_zero.2 hline, List.count_cons_self]
    omega

/-- What follows a piece: nothing, or a line feed. -/
def EndsPiece (after : List Char) : Prop := after = [] ∨ after.head? = some '\n'

/-- The pieces are counted from `first` on, one for each line feed before them. -/
theorem exists_of_mem_pieces {first : Nat}
    (h : (piece, number) ∈ (content.splitOn '\n').zipIdx first) :
    ∃ before after, content = before ++ (piece ++ after) ∧ BeginsLine before ∧ '\n' ∉ piece ∧
      EndsPiece after ∧ number = first + before.count '\n' := by
  induction content using lines_induction generalizing first with
  | last line hline =>
    rw [List.splitOn_eq_singleton hline, List.zipIdx_singleton, List.mem_singleton] at h
    obtain ⟨rfl, rfl⟩ := Prod.mk.inj h
    exact ⟨[], [], by simp, .inl rfl, hline, .inl rfl, by simp⟩
  | fed line rest hline ih =>
    rw [List.splitOn_append_cons_self_of_not_mem hline, List.zipIdx_cons, List.mem_cons] at h
    rcases h with h | h
    · obtain ⟨rfl, rfl⟩ := Prod.mk.inj h
      exact ⟨[], '\n' :: rest, rfl, .inl rfl, hline, .inr rfl, by simp⟩
    · obtain ⟨before, after, rfl, hbefore, hpiece, hafter, rfl⟩ := ih h
      refine ⟨line ++ '\n' :: before, after, by simp, .inr ?_, hpiece, hafter, ?_⟩
      · rcases hbefore with rfl | hbefore
        · simp
        · simp [List.getLast?_cons, hbefore]
      · rw [List.count_append, List.count_eq_zero.2 hline, List.count_cons_self]
        omega

/-- **The pieces of a text are the stretches between its line feeds**, each with the number of line
feeds before it, counted from one. -/
theorem mem_pieces_iff :
    (piece, number) ∈ (content.splitOn '\n').zipIdx 1 ↔
      ∃ before after, content = before ++ (piece ++ after) ∧ BeginsLine before ∧ '\n' ∉ piece ∧
        EndsPiece after ∧ number = 1 + before.count '\n' := by
  constructor
  · exact exists_of_mem_pieces
  · rintro ⟨before, after, rfl, hbefore, hpiece, hafter, rfl⟩
    -- the piece heads the pieces from its own start on, whatever follows it
    obtain ⟨more, hmore⟩ : ∃ more, (piece ++ after).splitOn '\n' = piece :: more := by
      cases after with
      | nil => exact ⟨[], by rw [List.append_nil, List.splitOn_eq_singleton hpiece]⟩
      | cons ch after =>
        obtain rfl : ch = '\n' := by simpa [EndsPiece] using hafter
        exact ⟨_, List.splitOn_append_cons_self_of_not_mem hpiece _⟩
    rcases hbefore with rfl | hbefore
    · rw [List.nil_append, hmore]
      simp
    · obtain ⟨front, rfl⟩ := List.getLast?_eq_some_iff.1 hbefore
      have hpieces : (front ++ ['\n'] ++ (piece ++ after)).splitOn '\n' =
          front.splitOn '\n' ++ piece :: more := by
        rw [List.append_assoc, List.singleton_append, List.splitOn_append_cons_self, hmore]
      rw [hpieces, List.zipIdx_append, List.zipIdx_cons, length_pieces]
      refine List.mem_append_right _ (List.mem_cons.2 (.inl ?_))
      rw [List.count_append, List.count_singleton_self]

/-! ### Trimmed lines -/

/-- One more blank at its end does not change what is left of a text. -/
theorem IsTrimmed.append_blank {cs w : List Char} {ch : Char} (h : IsTrimmed cs w)
    (hch : isBlank ch = true) : IsTrimmed (cs ++ [ch]) w := by
  obtain ⟨⟨front, back, rfl, hfront, hback⟩, hhead, hlast⟩ := h
  refine ⟨⟨front, back ++ [ch], by simp, hfront, fun c hc => ?_⟩, hhead, hlast⟩
  rcases List.mem_append.1 hc with hc | hc
  · exact hback c hc
  · rw [List.mem_singleton.1 hc]
    exact hch

/-- A carriage return at the end goes with the blanks. -/
theorem trim_dropReturn (piece : List Char) : trim (dropReturn piece) = trim piece := by
  unfold dropReturn
  split
  · rename_i hreturn
    obtain ⟨front, rfl⟩ := List.getLast?_eq_some_iff.1 hreturn
    rw [List.dropLast_concat]
    exact ((isTrimmed_trim front).append_blank (by decide)).eq_trim
  · rfl

/-- Trimming adds no character. -/
theorem mem_of_mem_trim {cs : List Char} {ch : Char} (h : ch ∈ trim cs) : ch ∈ cs := by
  obtain ⟨front, back, hcs, -, -⟩ := (isTrimmed_trim cs).split
  rw [hcs]
  exact List.mem_append_right _ (List.mem_append_left _ h)

/-- A trimmed line is a trimmed piece. -/
theorem exists_isLine_iff {w : List Char} :
    (∃ line, IsLine content number line ∧ IsTrimmed line w) ↔
      ∃ piece, (piece, number) ∈ (content.splitOn '\n').zipIdx 1 ∧ w = trim piece := by
  constructor
  · rintro ⟨line, hline, hw⟩
    rw [isTrimmed_iff] at hw
    cases hline with
    | @fed before piece after hbefore hpiece hcontent =>
      refine ⟨piece, ?_, by rw [hw, trim_dropReturn]⟩
      exact mem_pieces_iff.2 ⟨before, '\n' :: after, hcontent, hbefore, hpiece, .inr rfl, rfl⟩
    | @last before line hbefore hline hcontent =>
      refine ⟨line, ?_, hw⟩
      exact mem_pieces_iff.2 ⟨before, [], by simpa using hcontent, hbefore, hline, .inl rfl, rfl⟩
  · rintro ⟨piece, hmem, rfl⟩
    obtain ⟨before, after, hcontent, hbefore, hpiece, hafter, rfl⟩ := mem_pieces_iff.1 hmem
    cases after with
    | nil => exact ⟨piece, .last hbefore hpiece (by simpa using hcontent), isTrimmed_trim piece⟩
    | cons ch after =>
      obtain rfl : ch = '\n' := by simpa [EndsPiece] using hafter
      refine ⟨dropReturn piece, .fed hbefore hpiece hcontent, ?_⟩
      rw [isTrimmed_iff, trim_dropReturn]

end Pieces
end Text

/-! ### Clauses with their numbers -/

namespace ClauseInput

/-- The clause of a numbered text from a file. -/
def labelled (source : String) (entry : Nat × String) : ClauseInput :=
  ⟨source ++ ":" ++ toString entry.1, entry.2⟩

/-- The text so many lines further down. -/
def lowered (lines : Nat) (entry : Nat × String) : Nat × String := (entry.1 + lines, entry.2)

/-- The clauses of a text with the numbers of their lines. -/
def numbered (content : String) : List (Nat × String) :=
  ((content.toList.splitOn '\n').zipIdx 1).filterMap fun line =>
    (ofLine? "" line.2 line.1).map fun clause => (line.2, clause.text)

/-- A trimmed line that is passed over: an empty one, or a comment. -/
def PassedOver (w : List Char) : Prop := w = [] ∨ w.head? = some '#'

section Lines

variable {line : List Char} {content : String} {number : Nat} {text : String}

/-- A line that is blank or a comment gives no clause. -/
theorem ofLine?_of_passedOver (h : PassedOver (Text.trim line)) (source : String) (number : Nat) :
    ofLine? source number line = none := by
  unfold ofLine?
  rcases h with h | h
  · simp only [h]
  · cases hw : Text.trim line with
    | nil => rfl
    | cons ch w =>
      obtain rfl : ch = '#' := by simpa [hw] using h
      rfl

/-- Any other line gives a clause: what is left of it when it is trimmed. -/
theorem ofLine?_of_not_passedOver (h : ¬ PassedOver (Text.trim line)) (source : String)
    (number : Nat) :
    ofLine? source number line =
      some (labelled source (number, String.ofList (Text.trim line))) := by
  simp only [ofLine?]
  split
  · rename_i hw
    exact absurd (.inl hw) h
  · rename_i w hw
    exact absurd (.inr (by rw [hw]; rfl)) h
  · rfl

/-- The name of the file enters the label, and nothing else. -/
theorem ofContent_eq_map (source content : String) :
    ofContent source content = (numbered content).map (labelled source) := by
  rw [ofContent, numbered, List.map_filterMap]
  congr 1
  funext line
  by_cases h : PassedOver (Text.trim line.1)
  · rw [ofLine?_of_passedOver h, ofLine?_of_passedOver h]
    rfl
  · rw [ofLine?_of_not_passedOver h, ofLine?_of_not_passedOver h]
    rfl

/-- The clauses of a text are the pieces that are not passed over, trimmed, each with its number. -/
theorem mem_numbered_iff_pieces :
    (number, text) ∈ numbered content ↔
      ∃ piece, (piece, number) ∈ (content.toList.splitOn '\n').zipIdx 1 ∧
        text.toList = Text.trim piece ∧ ¬ PassedOver text.toList := by
  rw [numbered, List.mem_filterMap]
  constructor
  · rintro ⟨⟨piece, n⟩, hmem, h⟩
    by_cases hpassed : PassedOver (Text.trim piece)
    · rw [ofLine?_of_passedOver hpassed] at h
      cases h
    · rw [ofLine?_of_not_passedOver hpassed] at h
      obtain ⟨rfl, rfl⟩ := Prod.mk.inj (Option.some.inj h)
      refine ⟨piece, hmem, ?_, ?_⟩ <;> simp only [labelled, String.toList_ofList]
      exact hpassed
  · rintro ⟨piece, hmem, htext, hpassed⟩
    refine ⟨(piece, number), hmem, ?_⟩
    rw [htext] at hpassed
    rw [ofLine?_of_not_passedOver hpassed, ← htext, String.ofList_toList]
    rfl

/-- **A clause is a trimmed line that is not passed over**, with the number of the line. -/
theorem mem_numbered_iff :
    (number, text) ∈ numbered content ↔
      ∃ line, Text.IsLine content.toList number line ∧ Text.IsTrimmed line text.toList ∧
        ¬ PassedOver text.toList := by
  rw [mem_numbered_iff_pieces]
  constructor
  · rintro ⟨piece, hmem, htext, hpassed⟩
    obtain ⟨line, hline, htrim⟩ := Text.exists_isLine_iff.2 ⟨piece, hmem, htext⟩
    exact ⟨line, hline, htrim, hpassed⟩
  · rintro ⟨line, hline, htrim, hpassed⟩
    obtain ⟨piece, hmem, htext⟩ := Text.exists_isLine_iff.1 ⟨line, hline, htrim⟩
    exact ⟨piece, hmem, htext, hpassed⟩

/-- The numbers of the clauses increase, since a line gives at most one. -/
theorem pairwise_numbered (content : String) :
    (numbered content).Pairwise fun a b => a.1 < b.1 := by
  have hnumbers : ((content.toList.splitOn '\n').zipIdx 1).Pairwise fun a b => a.2 < b.2 := by
    rw [← List.pairwise_map (f := Prod.snd), List.zipIdx_map_snd]
    exact List.pairwise_lt_range'
  refine hnumbers.filterMap _ fun a b hlt entry ha entry' hb => ?_
  obtain ⟨clause, -, rfl⟩ := Option.map_eq_some_iff.1 ha
  obtain ⟨clause', -, rfl⟩ := Option.map_eq_some_iff.1 hb
  exact hlt

/-- A clause is not empty, is on one line, and has no blanks at its ends. -/
theorem text_of_mem_numbered {entry : Nat × String} (h : entry ∈ numbered content) :
    entry.2.toList ≠ [] ∧ '\n' ∉ entry.2.toList ∧
      (∀ ch ∈ entry.2.toList.head?, Text.isBlank ch = false) ∧
      ∀ ch ∈ entry.2.toList.getLast?, Text.isBlank ch = false := by
  obtain ⟨piece, hmem, htext, hpassed⟩ := mem_numbered_iff_pieces.1 h
  obtain ⟨-, -, -, -, hpiece, -, -⟩ := Text.mem_pieces_iff.1 hmem
  have htrimmed := Text.isTrimmed_iff.2 htext
  refine ⟨fun hnil => hpassed (.inl hnil), fun hfeed => hpiece ?_, htrimmed.head, htrimmed.last⟩
  rw [htext] at hfeed
  exact Text.mem_of_mem_trim hfeed

/-! ### Texts joined by a line feed -/

/-- **The clauses of joined texts are those of the first, then those of the second**, counted on
from the lines of the first. -/
theorem numbered_append (a b : String) :
    numbered (a ++ "\n" ++ b) =
      numbered a ++ (numbered b).map (lowered (1 + a.toList.count '\n')) := by
  have hjoined : (a ++ "\n" ++ b).toList = a.toList ++ '\n' :: b.toList := by simp
  have hcounted : (b.toList.splitOn '\n').zipIdx (1 + (a.toList.splitOn '\n').length) =
      ((b.toList.splitOn '\n').zipIdx 1).map (Prod.map id (· + (1 + a.toList.count '\n'))) := by
    rw [List.map_snd_add_zipIdx_eq_zipIdx, Text.length_pieces]
    rfl
  simp only [numbered]
  rw [hjoined, List.splitOn_append_cons_self, List.zipIdx_append, List.filterMap_append, hcounted,
    List.filterMap_map, List.map_filterMap]
  congr 2
  funext line
  obtain ⟨piece, n⟩ := line
  by_cases h : PassedOver (Text.trim piece)
  · simp [ofLine?_of_passedOver h]
  · simp [ofLine?_of_not_passedOver h, labelled, lowered]

/-- A text without a clause is one of blank lines and comments only. -/
theorem numbered_eq_nil_iff :
    numbered content = [] ↔
      ∀ n line w, Text.IsLine content.toList n line → Text.IsTrimmed line w → PassedOver w := by
  rw [List.eq_nil_iff_forall_not_mem]
  constructor
  · intro h n line w hline htrim
    by_contra hpassed
    refine h (n, String.ofList w) (mem_numbered_iff.2 ⟨line, hline, ?_⟩)
    rw [String.toList_ofList]
    exact ⟨htrim, hpassed⟩
  · intro h entry hmem
    obtain ⟨line, hline, htrim, hpassed⟩ := mem_numbered_iff.1 hmem
    exact hpassed (h entry.1 line _ hline htrim)

/-- A label does not change the text of a clause. -/
theorem map_text_labelled (source : String) (entries : List (Nat × String)) :
    (entries.map (labelled source)).map ClauseInput.text = entries.map Prod.snd := by
  rw [List.map_map]
  rfl

/-- Nor does a number. -/
theorem map_snd_lowered (lines : Nat) (entries : List (Nat × String)) :
    (entries.map (lowered lines)).map Prod.snd = entries.map Prod.snd := by
  rw [List.map_map]
  rfl

end Lines

/-- **The clauses of a file are its lines.** A text has, in order, one clause for each of its lines
that is neither blank nor a comment: the trimmed line, with the name of the file and the number of
the line as its label. The numbers increase, and no clause is empty, has a line feed or a blank at
either end. The clauses of two texts joined by a line feed are those of the first and those of the
second, whose numbers are raised by the lines of the first. So blank lines and comments, put before,
between or behind other lines, change no text of a clause. -/
theorem ofContent_lines (source content : String) :
    ofContent source content = (numbered content).map (labelled source) ∧
      (∀ number text, (number, text) ∈ numbered content ↔
        ∃ line, Text.IsLine content.toList number line ∧ Text.IsTrimmed line text.toList ∧
          text.toList ≠ [] ∧ text.toList.head? ≠ some '#') ∧
      ((numbered content).Pairwise fun a b => a.1 < b.1) ∧
      (∀ clause ∈ ofContent source content,
        clause.text.toList ≠ [] ∧ '\n' ∉ clause.text.toList ∧
          (∀ ch ∈ clause.text.toList.head?, Text.isBlank ch = false) ∧
          ∀ ch ∈ clause.text.toList.getLast?, Text.isBlank ch = false) ∧
      (∀ more, ofContent source (content ++ "\n" ++ more) =
        ofContent source content ++
          (numbered more).map fun entry =>
            labelled source (entry.1 + (1 + content.toList.count '\n'), entry.2)) ∧
      ∀ filler, (∀ n line w, Text.IsLine filler.toList n line → Text.IsTrimmed line w →
          w = [] ∨ w.head? = some '#') →
        ofContent source (content ++ "\n" ++ filler) = ofContent source content ∧
        (ofContent source (filler ++ "\n" ++ content)).map ClauseInput.text =
          (ofContent source content).map ClauseInput.text ∧
        ∀ more, (ofContent source (content ++ "\n" ++ filler ++ "\n" ++ more)).map
            ClauseInput.text =
          (ofContent source (content ++ "\n" ++ more)).map ClauseInput.text := by
  refine ⟨ofContent_eq_map source content, fun number text => ?_, pairwise_numbered content,
    fun clause hclause => ?_, fun more => ?_, fun filler hfiller => ?_⟩
  · rw [mem_numbered_iff]
    simp only [PassedOver, not_or, ne_eq]
  · rw [ofContent_eq_map] at hclause
    obtain ⟨entry, hentry, rfl⟩ := List.mem_map.1 hclause
    exact text_of_mem_numbered hentry
  · rw [ofContent_eq_map, numbered_append, List.map_append, List.map_map, ← ofContent_eq_map]
    rfl
  · have hnone := numbered_eq_nil_iff.2 hfiller
    refine ⟨?_, ?_, fun more => ?_⟩
    · rw [ofContent_eq_map, numbered_append, hnone, List.map_nil, List.append_nil,
        ← ofContent_eq_map]
    · simp only [ofContent_eq_map, numbered_append, hnone, List.nil_append, map_text_labelled,
        map_snd_lowered]
    · simp only [ofContent_eq_map, numbered_append, hnone, List.map_nil, List.append_nil,
        map_text_labelled, List.map_append, map_snd_lowered]

/-- A no-break space with a carriage return and a comment, put between two clauses: the second is
counted two lines further down, and the texts stay. -/
theorem ofContent_lines_noted :
    numbered "\u00A0\r\n  # note" = [] ∧
      ofContent "f" "file: a.png\n\u00A0\r\n  # note\n stretch\r\n" =
        [⟨"f:1", "file: a.png"⟩, ⟨"f:4", "stretch"⟩] ∧
      (ofContent "f" "file: a.png\n\u00A0\r\n  # note\n stretch\r\n").map ClauseInput.text =
        (ofContent "f" "file: a.png\n stretch\r\n").map ClauseInput.text := by
  have hnone : numbered "\u00A0\r\n  # note" = [] := by decide +kernel
  refine ⟨hnone, by decide +kernel, ?_⟩
  obtain ⟨-, -, -, -, -, hfiller⟩ := ofContent_lines "f" "file: a.png"
  obtain ⟨-, -, hbetween⟩ := hfiller "\u00A0\r\n  # note" (numbered_eq_nil_iff.1 hnone)
  exact hbetween " stretch\r\n"

end ClauseInput
end ImageCheck
