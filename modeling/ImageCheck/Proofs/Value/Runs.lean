/-
# The runs of a text

`SPEC_FULL` §4.5: tokens are maximal runs of characters that are not whitespace.

A run is a stretch of characters that are not blank, with blanks or an end of the
text on both sides: `IsRun` says so without going through the text. `RunsOf` is the
list of all runs of a text in their order.

A cursor finds them one after another: `Cursor.tokens` reads token after token up
to the end, and `runsOf_tokens` says that these are the runs. `exists_parts` takes
the text at a cursor apart into blanks, a token and the rest, and every step of the
proof is about such parts.
-/

import ImageCheck.Proofs.Clause.Reading
import ImageCheck.Value.Token

namespace ImageCheck

/-- A maximal run of characters that are not blank in a text that begins at `start`, with the place
where it begins. -/
inductive IsRun (start : Position) (text : List Char) : Token → Prop
  | mk {before run after : List Char} (htext : text = before ++ (run ++ after)) (hne : run ≠ [])
      (hrun : ∀ ch ∈ run, Text.isBlank ch = false)
      (hbefore : ∀ ch ∈ before.getLast?, Text.isBlank ch = true)
      (hafter : ∀ ch ∈ after.head?, Text.isBlank ch = true) :
      IsRun start text ⟨start.advanceBy before, run⟩

/-- The runs of a text in their order: all of them, each once. -/
structure RunsOf (text : List Char) (runs : List Token) : Prop where
  /-- They are the runs of the text. -/
  mem_iff : ∀ t, t ∈ runs ↔ IsRun .start text t
  /-- They stand one after another. -/
  ordered : runs.Pairwise fun a b => a.start.offset < b.start.offset

/-- Walking over a text does not go back. -/
theorem Position.offset_le_advanceBy (p : Position) (cs : List Char) :
    p.offset ≤ (p.advanceBy cs).offset := by
  rw [advanceBy_eq]
  exact Nat.le_add_right _ _

/-- A text that is not empty has bytes. -/
theorem Text.bytes_pos {cs : List Char} (h : cs ≠ []) : 0 < bytes cs := by
  cases cs with
  | nil => exact absurd rfl h
  | cons ch cs =>
    have hch := ch.utf8Size_pos
    simp only [bytes, List.foldr_cons]
    omega

/-- A run of a class that ends where the class does is found by going as far as the class goes. -/
theorem Text.takeWhile_append {p : Char → Bool} {w rest : List Char} (hw : ∀ ch ∈ w, p ch = true)
    (hrest : ∀ ch ∈ rest.head?, p ch = false) : (w ++ rest).takeWhile p = w := by
  rw [List.takeWhile_append_of_pos hw]
  cases rest with
  | nil => simp
  | cons ch rest => simp [hrest ch rfl]

namespace Cursor

/-! ### The parts of a text at a cursor -/

theorem head_append_not_isBlank {run rest : List Char} (hne : run ≠ [])
    (hrun : ∀ ch ∈ run, Text.isBlank ch = false) :
    ∀ ch ∈ (run ++ rest).head?, Text.isBlank ch = false := by
  intro ch hch
  obtain ⟨d, more, rfl⟩ := List.exists_cons_of_ne_nil hne
  obtain rfl : d = ch := Option.some.inj hch
  exact hrun d List.mem_cons_self

/-- Where blanks, a run and a rest stand before a cursor, the run is its token. -/
theorem skipBlanks_token_afterToken_append (p : Position) {blanks run rest : List Char}
    (hblanks : ∀ ch ∈ blanks, Text.isBlank ch = true)
    (hhead : ∀ ch ∈ (run ++ rest).head?, Text.isBlank ch = false)
    (hrun : ∀ ch ∈ run, Text.isBlank ch = false)
    (hend : ∀ ch ∈ rest.head?, Text.isBlank ch = true) :
    let c : Cursor := ⟨p, blanks ++ (run ++ rest)⟩
    c.skipBlanks = ⟨p.advanceBy blanks, run ++ rest⟩ ∧ c.token = ⟨p.advanceBy blanks, run⟩ ∧
      c.afterToken = ⟨(p.advanceBy blanks).advanceBy run, rest⟩ := by
  intro c
  have hskip : c.skipBlanks = ⟨p.advanceBy blanks, run ++ rest⟩ := skipBlanks_append p hblanks hhead
  have hinToken : ∀ ch ∈ run, inToken ch = true := by
    intro ch hch
    rw [inToken, hrun ch hch]
    rfl
  have hstop : ∀ ch ∈ rest.head?, inToken ch = false := by
    intro ch hch
    rw [inToken, hend ch hch]
    rfl
  refine ⟨hskip, ?_, ?_⟩
  · rw [token, hskip]
    simp only [Text.takeWhile_append hinToken hstop]
  · rw [afterToken, hskip, skipWhile_append _ hinToken hstop]

/-- The text at a cursor is blanks, a token and a rest that begins with a blank; without a token
there is no rest. -/
theorem exists_parts (c : Cursor) :
    ∃ blanks run rest, c.rest = blanks ++ (run ++ rest) ∧
      (∀ ch ∈ blanks, Text.isBlank ch = true) ∧ (∀ ch ∈ run, Text.isBlank ch = false) ∧
      (∀ ch ∈ rest.head?, Text.isBlank ch = true) ∧ (run = [] → rest = []) ∧
      c.skipBlanks = ⟨c.position.advanceBy blanks, run ++ rest⟩ ∧
      c.token = ⟨c.position.advanceBy blanks, run⟩ ∧
      c.afterToken = ⟨(c.position.advanceBy blanks).advanceBy run, rest⟩ := by
  obtain ⟨blanks, more, hrest, hblanks, hmore, -⟩ := c.exists_skipBlanks
  obtain ⟨run, rest, rfl, hrun, hend⟩ := Text.exists_run_until Text.isBlank more
  have hparts := skipBlanks_token_afterToken_append c.position hblanks hmore hrun hend
  rw [← hrest] at hparts
  refine ⟨blanks, run, rest, hrest, hblanks, hrun, hend, ?_, hparts⟩
  rintro rfl
  -- a rest would begin with a blank, but no blank follows blanks that were skipped
  cases rest with
  | nil => rfl
  | cons ch rest =>
    have hblank := hend ch rfl
    rw [hmore ch rfl] at hblank
    cases hblank

/-- A token takes up at least one character, so that reading tokens ends. -/
theorem length_afterToken_lt {c : Cursor} (h : c.token.text ≠ []) :
    c.afterToken.rest.length < c.rest.length := by
  obtain ⟨blanks, run, rest, hrest, -, -, -, -, -, htoken, hafter⟩ := c.exists_parts
  rw [htoken] at h
  have hpos : 0 < run.length := List.length_pos_iff.2 h
  rw [hafter, hrest]
  simp only [List.length_append]
  omega

/-- The tokens from a cursor on, up to the end of the text. -/
def tokens (c : Cursor) : List Token :=
  if _h : c.token.text = [] then [] else c.token :: c.afterToken.tokens
termination_by c.rest.length
decreasing_by exact length_afterToken_lt _h

/-- Without a token there are none. -/
theorem tokens_of_eq_nil {c : Cursor} (h : c.token.text = []) : c.tokens = [] := by
  rw [tokens, dif_pos h]

/-- Otherwise the next token is the first of them. -/
theorem tokens_of_ne_nil {c : Cursor} (h : c.token.text ≠ []) :
    c.tokens = c.token :: c.afterToken.tokens := by
  rw [tokens, dif_neg h]

/-! ### The tokens are the runs -/

/-- Two runs that begin at the same place are the same run. -/
theorem run_eq_of_append_eq {run run' rest rest' : List Char}
    (h : run ++ rest = run' ++ rest') (hrun : ∀ ch ∈ run, Text.isBlank ch = false)
    (hrest : ∀ ch ∈ rest.head?, Text.isBlank ch = true)
    (hrun' : ∀ ch ∈ run', Text.isBlank ch = false)
    (hrest' : ∀ ch ∈ rest'.head?, Text.isBlank ch = true) : run = run' := by
  have htake : (run ++ rest).takeWhile (fun ch => !Text.isBlank ch) = run :=
    Text.takeWhile_append (by simpa using hrun) (by simpa using hrest)
  have htake' : (run' ++ rest').takeWhile (fun ch => !Text.isBlank ch) = run' :=
    Text.takeWhile_append (by simpa using hrun') (by simpa using hrest')
  rw [← htake, h, htake']

/-- A run of a text is its first token or a run of what follows that token. -/
theorem isRun_append_iff {start : Position} {blanks run rest : List Char}
    (hblanks : ∀ ch ∈ blanks, Text.isBlank ch = true) (hne : run ≠ [])
    (hrun : ∀ ch ∈ run, Text.isBlank ch = false)
    (hrest : ∀ ch ∈ rest.head?, Text.isBlank ch = true) {t : Token} :
    IsRun start (blanks ++ (run ++ rest)) t ↔
      t = ⟨start.advanceBy blanks, run⟩ ∨
        IsRun ((start.advanceBy blanks).advanceBy run) rest t := by
  constructor
  · rintro ⟨htext, hne', hrun', hbefore, hafter⟩
    rename_i before run' after
    rcases List.append_eq_append_iff.1 htext with ⟨as, rfl, hsplit⟩ | ⟨bs, rfl, hsplit⟩
    · rcases List.append_eq_append_iff.1 hsplit with ⟨cs, rfl, rfl⟩ | ⟨ds, rfl, hsplit'⟩
      · -- the other run lies beyond the token
        right
        rw [Position.advanceBy_append, Position.advanceBy_append]
        refine .mk rfl hne' hrun' (fun ch hch => hbefore ch ?_) hafter
        simp [List.getLast?_append, Option.mem_def.1 hch]
      · rcases List.eq_nil_or_concat as with rfl | ⟨as, ch, rfl⟩
        · left
          rw [List.append_nil, run_eq_of_append_eq hsplit' hrun' hafter hrun hrest]
          rfl
        · -- a run does not begin inside the token
          have hblank := hbefore ch (by simp)
          rw [hrun ch (by simp)] at hblank
          cases hblank
    · cases bs with
      | nil =>
        left
        rw [List.nil_append] at hsplit
        rw [List.append_nil, run_eq_of_append_eq hsplit hrun' hafter hrun hrest]
      | cons ch bs =>
        -- nor among the blanks before it
        obtain ⟨run', rfl⟩ : ∃ more, run' = ch :: more := by
          cases run' with
          | nil => exact absurd rfl hne'
          | cons d more => exact ⟨more, by rw [(List.cons.inj hsplit).1]⟩
        have hblank := hblanks ch (by simp)
        rw [hrun' ch List.mem_cons_self] at hblank
        cases hblank
  · rintro (rfl | ⟨htext, hne', hrun', hbefore, hafter⟩)
    · exact .mk rfl hne hrun (fun ch hch => hblanks ch (List.mem_of_getLast? hch)) hrest
    · rename_i before run' after
      subst htext
      rw [← Position.advanceBy_append, ← Position.advanceBy_append]
      refine .mk (by simp) hne' hrun' (fun ch hch => ?_) hafter
      rcases List.eq_nil_or_concat before with rfl | ⟨before, d, rfl⟩
      · -- a run does not begin right behind the token, where there is a blank
        obtain ⟨d, more, rfl⟩ := List.exists_cons_of_ne_nil hne'
        have hblank := hrest d rfl
        rw [hrun' d List.mem_cons_self] at hblank
        cases hblank
      · refine hbefore ch ?_
        simpa [← List.append_assoc] using hch

/-- The tokens from a cursor on are the runs of the text there. -/
theorem mem_tokens_iff {c : Cursor} {t : Token} :
    t ∈ c.tokens ↔ IsRun c.position c.rest t := by
  induction c using tokens.induct with
  | case1 c h =>
    obtain ⟨blanks, run, rest, hrest, hblanks, -, -, hnil, -, htoken, -⟩ := c.exists_parts
    rw [htoken] at h
    obtain rfl : run = [] := h
    obtain rfl := hnil rfl
    rw [tokens_of_eq_nil (by rw [htoken])]
    refine ⟨fun hmem => absurd hmem List.not_mem_nil, ?_⟩
    rintro ⟨htext, hne, hrun, -, -⟩
    obtain ⟨ch, more, rfl⟩ := List.exists_cons_of_ne_nil hne
    have hch : ch ∈ c.rest := by
      rw [htext]
      simp
    have hblank := hblanks ch (by simpa [hrest] using hch)
    rw [hrun ch List.mem_cons_self] at hblank
    cases hblank
  | case2 c h ih =>
    obtain ⟨blanks, run, rest, hrest, hblanks, hrun, hend, -, -, htoken, hafter⟩ := c.exists_parts
    have hne : run ≠ [] := by
      rw [htoken] at h
      exact h
    rw [tokens_of_ne_nil h, List.mem_cons, ih, hrest,
      isRun_append_iff hblanks hne hrun hend, htoken, hafter]

/-- No token stands before the cursor. -/
theorem position_le_of_mem_tokens {c : Cursor} {t : Token} (h : t ∈ c.tokens) :
    c.position.offset ≤ t.start.offset := by
  cases mem_tokens_iff.1 h with
  | mk => exact Position.offset_le_advanceBy _ _

/-- A token begins before every token that follows it. -/
theorem pairwise_tokens (c : Cursor) :
    c.tokens.Pairwise fun a b => a.start.offset < b.start.offset := by
  induction c using tokens.induct with
  | case1 c h =>
    rw [tokens_of_eq_nil h]
    exact .nil
  | case2 c h ih =>
    rw [tokens_of_ne_nil h]
    refine List.pairwise_cons.2 ⟨fun t ht => ?_, ih⟩
    have hpos := Text.bytes_pos h
    have hle := position_le_of_mem_tokens ht
    have hafter : c.afterToken.position = c.token.start.advanceBy c.token.text := rfl
    rw [hafter, Position.advanceBy_eq] at hle
    exact Nat.lt_of_lt_of_le (Nat.lt_add_of_pos_right hpos) hle

/-! ### Tokens of another text -/

/-- What a token reads does not depend on where the text begins. -/
theorem map_text_tokens (c : Cursor) (p : Position) :
    (⟨p, c.rest⟩ : Cursor).tokens.map Token.text = c.tokens.map Token.text := by
  induction c using tokens.induct generalizing p with
  | case1 c h =>
    have hnil : (⟨p, c.rest⟩ : Cursor).token.text = [] := h
    rw [tokens_of_eq_nil h, tokens_of_eq_nil hnil]
  | case2 c h ih =>
    have hne : (⟨p, c.rest⟩ : Cursor).token.text ≠ [] := h
    rw [tokens_of_ne_nil h, tokens_of_ne_nil hne, List.map_cons, List.map_cons]
    exact congrArg (c.token.text :: ·) (ih _)

/-- Blanks at the end of a text hold no token. -/
theorem tokens_append_blanks (c : Cursor) {more : List Char}
    (hmore : ∀ ch ∈ more, Text.isBlank ch = true) :
    (⟨c.position, c.rest ++ more⟩ : Cursor).tokens = c.tokens := by
  induction c using tokens.induct with
  | case1 c h =>
    obtain ⟨blanks, run, rest, hrest, hblanks, -, -, hnil, -, htoken, -⟩ := c.exists_parts
    rw [htoken] at h
    obtain rfl : run = [] := h
    obtain rfl := hnil rfl
    have hall : ∀ ch ∈ blanks ++ more, Text.isBlank ch = true := fun ch hch =>
      (List.mem_append.1 hch).elim (hblanks ch) (hmore ch)
    have hsame : c.rest ++ more = blanks ++ more ++ ([] ++ []) := by
      simp [hrest]
    obtain ⟨-, hnone, -⟩ := skipBlanks_token_afterToken_append c.position hall
      (show ∀ ch ∈ ([] ++ [] : List Char).head?, Text.isBlank ch = false by simp) (by simp) (by simp)
    rw [tokens_of_eq_nil (by rw [htoken] : c.token.text = []), hsame]
    exact tokens_of_eq_nil (by rw [hnone])
  | case2 c h ih =>
    obtain ⟨blanks, run, rest, hrest, hblanks, hrun, hend, -, -, htoken, hafter⟩ := c.exists_parts
    have hne : run ≠ [] := by
      rw [htoken] at h
      exact h
    have hend' : ∀ ch ∈ (rest ++ more).head?, Text.isBlank ch = true := by
      cases rest with
      | nil => exact fun ch hch => hmore ch (List.mem_of_head? hch)
      | cons d rest => exact hend
    obtain ⟨-, htoken', hafter'⟩ :=
      skipBlanks_token_afterToken_append c.position hblanks (head_append_not_isBlank hne hrun) hrun
        hend'
    have hsame : (⟨c.position, c.rest ++ more⟩ : Cursor) =
        ⟨c.position, blanks ++ (run ++ (rest ++ more))⟩ := by
      rw [hrest]
      simp
    rw [hsame, tokens_of_ne_nil h, tokens_of_ne_nil (by rwa [htoken']), htoken', hafter', htoken,
      ← ih, hafter]

/-- **The tokens of a text are its runs**, in their order. -/
theorem runsOf_tokens (text : List Char) : RunsOf text (ofList text).tokens :=
  ⟨fun _ => mem_tokens_iff, pairwise_tokens _⟩

end Cursor

/-- A text has one list of runs. -/
theorem RunsOf.unique {text : List Char} {runs runs' : List Token} (h : RunsOf text runs)
    (h' : RunsOf text runs') : runs = runs' := by
  have hlt {a b : Token} (hab : a.start.offset < b.start.offset) : a ≠ b := by
    rintro rfl
    exact Nat.lt_irrefl _ hab
  have hperm : runs.Perm runs' :=
    (List.perm_ext_iff_of_nodup (h.ordered.imp hlt) (h'.ordered.imp hlt)).2 fun t =>
      (h.mem_iff t).trans (h'.mem_iff t).symm
  exact hperm.eq_of_pairwise (fun _ _ _ _ hab hba => absurd hab (Nat.lt_asymm hba))
    h.ordered h'.ordered
end ImageCheck
