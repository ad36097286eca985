/-
# Reading a value call by call

`SPEC_FULL` §4.5; the calls of `CharReader`.

A value is read by calls on a cursor, and a call that fails leaves the cursor where
it stopped. Whatever the calls and whichever of them failed, the cursor stands
between two characters of the value, and the reads of words and numbers go through
its runs one by one:

| call | run `k` is there | no run is left |
| --- | --- | --- |
| `word` | its text, or that it is too long | a word is missing at the end |
| `number` | its value, or that it is too long or no number | a number is missing at the end |
| `finish` | all from the run on is too much | done |
| `hasMore` | yes | no |

where `k` counts the reads before the call. `Answers` is this table, `restsAt` says
where the cursor stands after a call. `answers_of_tokens` is one call, for a cursor
whose tokens are the runs from `k` on; `tokens_after` carries that over any
sequence of calls.
-/

import ImageCheck.Proofs.Clause.Splitting
import ImageCheck.Proofs.Value.Runs
import Mathlib.Algebra.Group.Nat.Defs

namespace ImageCheck

/-- The place after the last character of a text. -/
def Position.endOf (source : String) : Position := ⟨source.utf8ByteSize, 1 + source.length⟩

/-- Walking over a whole text ends at its end. -/
theorem Position.advanceBy_toList (source : String) :
    Position.start.advanceBy source.toList = .endOf source := by
  rw [advanceBy_eq, Text.bytes_toList, String.length_toList]
  simp [start, endOf]

namespace Cursor

/-! ### Calls -/

/-- What a reader of a value can be asked. -/
inductive Call where
  | word
  | number
  | finish
  | skip
  | hasMore
  | peek
  | remaining
  deriving DecidableEq, Repr

/-- The calls that take a token. -/
def Call.takesToken : Call → Bool
  | word | number => true
  | _ => false

/-- What a call gives. -/
inductive Reply where
  | word (result : Except ReadError String)
  | number (result : Except ReadError Binary64)
  | finish (result : Except ReadError Unit)
  | skipped
  | hasMore (more : Bool)
  | peek (next : Option Char)
  | remaining (text : String)

/-- What a cursor gives for a call. -/
def reply (c : Cursor) : Call → Reply
  | .word => .word c.word.1
  | .number => .number c.number.1
  | .finish => .finish c.finish.1
  | .skip => .skipped
  | .hasMore => .hasMore c.hasMore
  | .peek => .peek c.rest.head?
  | .remaining => .remaining (String.ofList c.rest)

/-- The cursor after a call, whether or not the call failed. -/
def next (c : Cursor) : Call → Cursor
  | .word => c.word.2
  | .number => c.number.2
  | .finish => c.finish.2
  | .skip => c.skipBlanks
  | .hasMore | .peek | .remaining => c

/-- The cursor after calls. -/
def after (c : Cursor) (calls : List Call) : Cursor := calls.foldl next c

/-- What a call gives for a value with these runs, after `k` reads and from position `p`. -/
inductive Answers (source : String) (runs : List Token) (k : Nat) (p : Position) :
    Call → Reply → Prop
  | word {t : Token} (h : runs[k]? = some t) (hshort : t.text.length ≤ 4096) :
      Answers source runs k p .word (.word (.ok (String.ofList t.text)))
  | longWord {t : Token} (h : runs[k]? = some t) (hlong : 4096 < t.text.length) :
      Answers source runs k p .word (.word (.error (.tokenTooLong t.text.length t.start)))
  | missingWord (h : runs.length ≤ k) :
      Answers source runs k p .word (.word (.error (.missingWord (.endOf source))))
  | number {t : Token} {x : Binary64} (h : runs[k]? = some t) (hshort : t.text.length ≤ 4096)
      (hliteral : Decimal.isLiteral t.text = true) (hvalue : Binary64.parse? t.text = some x)
      (hfinite : x.isFinite = true) :
      Answers source runs k p .number (.number (.ok x))
  | longNumber {t : Token} (h : runs[k]? = some t) (hlong : 4096 < t.text.length) :
      Answers source runs k p .number (.number (.error (.tokenTooLong t.text.length t.start)))
  | invalidNumber {t : Token} (h : runs[k]? = some t) (hshort : t.text.length ≤ 4096)
      (hinvalid : Decimal.isLiteral t.text = true →
        ∀ x, Binary64.parse? t.text = some x → x.isFinite = false) :
      Answers source runs k p .number
        (.number (.error (.invalidNumber (String.ofList t.text) t.start)))
  | missingNumber (h : runs.length ≤ k) :
      Answers source runs k p .number (.number (.error (.missingNumber (.endOf source))))
  | finished (h : runs.length ≤ k) : Answers source runs k p .finish (.finish (.ok ()))
  | trailing {t : Token} {before rest : List Char} (h : runs[k]? = some t)
      (hsource : source.toList = before ++ rest)
      (hstart : t.start = Position.start.advanceBy before) :
      Answers source runs k p .finish
        (.finish (.error (.trailingContent (String.ofList (Text.trimEnd rest)) t.start)))
  | skipped : Answers source runs k p .skip .skipped
  | hasMore : Answers source runs k p .hasMore (.hasMore (k < runs.length))
  | peek {before rest : List Char} (hsource : source.toList = before ++ rest)
      (hp : p = Position.start.advanceBy before) :
      Answers source runs k p .peek (.peek rest.head?)
  | remaining {before rest : List Char} (hsource : source.toList = before ++ rest)
      (hp : p = Position.start.advanceBy before) :
      Answers source runs k p .remaining (.remaining (String.ofList rest))

/-- Where a cursor stands after a call: behind the token it took, before the next one, or where it
stood. -/
def restsAt (source : String) (runs : List Token) (k : Nat) (p : Position) : Call → Position
  | .word | .number =>
    match runs[k]? with
    | some t => t.start.advanceBy t.text
    | none => .endOf source
  | .finish | .skip =>
    match runs[k]? with
    | some t => t.start
    | none => .endOf source
  | .hasMore | .peek | .remaining => p

/-! ### Where a cursor stands -/

/-- A cursor stands in a text when the text from its offset on is what it has left, and its column
counts the characters before. -/
def StandsIn (source : String) (c : Cursor) : Prop :=
  ∃ before rest : String, source = before ++ rest ∧ c.position.offset = before.utf8ByteSize ∧
    c.position.column = 1 + before.length ∧ c.rest = rest.toList

/-- Standing in a text, said with characters: what is left is an end of it, and the place is behind
the rest. -/
theorem standsIn_iff {source : String} {c : Cursor} :
    StandsIn source c ↔
      ∃ before, source.toList = before ++ c.rest ∧
        c.position = Position.start.advanceBy before := by
  constructor
  · rintro ⟨before, rest, rfl, hoffset, hcolumn, hrest⟩
    refine ⟨before.toList, by rw [String.toList_append, hrest], ?_⟩
    rw [Position.advanceBy_toList, Position.endOf, ← hoffset, ← hcolumn]
  · rintro ⟨before, hsource, hposition⟩
    have hend := Position.advanceBy_toList (String.ofList before)
    rw [String.toList_ofList, ← hposition] at hend
    refine ⟨String.ofList before, String.ofList c.rest, ?_, ?_, ?_, String.toList_ofList.symm⟩
    · rw [← String.ofList_append, ← hsource, String.ofList_toList]
    · rw [hend]
      rfl
    · rw [hend]
      rfl

section Standing

variable {source : String} {c : Cursor}

/-- A cursor stands in the text that it was made for. -/
theorem standsIn_ofList (source : String) : StandsIn source (ofList source.toList) :=
  standsIn_iff.2 ⟨[], rfl, rfl⟩

/-- Moving over a run keeps a cursor in the text. -/
theorem StandsIn.skipWhile (h : StandsIn source c) (p : Char → Bool) :
    StandsIn source (c.skipWhile p) := by
  obtain ⟨before, hsource, hposition⟩ := standsIn_iff.1 h
  refine standsIn_iff.2 ⟨before ++ c.rest.takeWhile p, ?_, ?_⟩
  · rw [hsource, List.append_assoc, rest_skipWhile, List.takeWhile_append_dropWhile]
  · rw [Position.advanceBy_append, ← hposition]
    rfl

/-- A call keeps a cursor in the text, whether or not it fails. -/
theorem StandsIn.next (h : StandsIn source c) (call : Call) : StandsIn source (c.next call) := by
  cases call with
  | word | number => exact (h.skipWhile _).skipWhile _
  | finish | skip => exact h.skipWhile _
  | hasMore | peek | remaining => exact h

/-- Calls keep a cursor in the text. -/
theorem StandsIn.after (h : StandsIn source c) (calls : List Call) :
    StandsIn source (c.after calls) := by
  induction calls generalizing c with
  | nil => exact h
  | cons call calls ih => exact ih (h.next call)

/-- A cursor with nothing left stands at the end. -/
theorem StandsIn.position_eq (h : StandsIn source c) (hrest : c.rest = []) :
    c.position = .endOf source := by
  obtain ⟨before, hsource, hposition⟩ := standsIn_iff.1 h
  rw [hrest, List.append_nil] at hsource
  rw [hposition, ← hsource, Position.advanceBy_toList]

/-- The column of a cursor stays within the text. -/
theorem StandsIn.column_le (h : StandsIn source c) : c.position.column ≤ 1 + source.length := by
  obtain ⟨before, rest, rfl, -, hcolumn, -⟩ := h
  rw [hcolumn, String.length_append]
  omega

/-- Skipping does not move a cursor back. -/
theorem offset_le_skipWhile (c : Cursor) (p : Char → Bool) :
    c.position.offset ≤ (c.skipWhile p).position.offset :=
  Position.offset_le_advanceBy _ _

/-- No call moves a cursor back. -/
theorem offset_le_next (c : Cursor) (call : Call) :
    c.position.offset ≤ (c.next call).position.offset := by
  cases call with
  | word | number => exact Nat.le_trans (offset_le_skipWhile c _) (offset_le_skipWhile _ _)
  | finish | skip => exact offset_le_skipWhile c _
  | hasMore | peek | remaining => exact Nat.le_refl _

end Standing

/-! ### One call -/

/-- Skipping blanks loses no token. -/
theorem tokens_skipBlanks (c : Cursor) : c.skipBlanks.tokens = c.tokens := by
  obtain ⟨blanks, rest, -, -, hhead, hskip⟩ := c.exists_skipBlanks
  have hagain : c.skipBlanks.skipBlanks = c.skipBlanks := by
    rw [hskip]
    exact skipBlanks_append _ (fun ch hch => absurd hch List.not_mem_nil) hhead
  have htoken : c.skipBlanks.token = c.token := by
    rw [token, token, hagain]
  have hafter : c.skipBlanks.afterToken = c.afterToken := by
    rw [afterToken, afterToken, hagain]
  by_cases hnil : c.token.text = []
  · rw [tokens_of_eq_nil hnil, tokens_of_eq_nil (by rw [htoken, hnil])]
  · rw [tokens_of_ne_nil hnil, tokens_of_ne_nil (by rwa [htoken]), htoken, hafter]

/-- Something other than blanks is left exactly when there is a token. -/
theorem hasMore_iff {c : Cursor} : c.hasMore = true ↔ c.token.text ≠ [] := by
  obtain ⟨blanks, run, rest, hrest, hblanks, hrun, -, hnil, -, htoken, -⟩ := c.exists_parts
  rw [hasMore, hrest, htoken]
  cases run with
  | nil =>
    rw [hnil rfl]
    simpa using hblanks
  | cons ch run => simp [hrun ch List.mem_cons_self]

section Call

variable {source : String} {runs : List Token} {k : Nat} {c : Cursor}

/-- Nothing but blanks is left exactly if there is no token. -/
theorem skipBlanks_rest_eq_nil_iff : c.skipBlanks.rest = [] ↔ c.token.text = [] := by
  obtain ⟨blanks, run, rest, -, -, -, -, hnil, hskip, htoken, -⟩ := c.exists_parts
  rw [hskip, htoken]
  constructor
  · intro h
    exact (List.append_eq_nil_iff.1 h).1
  · intro h
    obtain rfl : run = [] := h
    simpa using hnil rfl

/-- A cursor whose tokens are the runs from `k` on is before run `k`, if there is one. -/
theorem getElem?_of_ne_nil (htokens : c.tokens = runs.drop k) (h : c.token.text ≠ []) :
    runs[k]? = some c.token ∧ c.afterToken.tokens = runs.drop (k + 1) := by
  rw [tokens_of_ne_nil h] at htokens
  constructor
  · rw [← List.head?_drop, ← htokens]
    rfl
  · rw [← List.tail_drop, ← htokens]
    rfl

/-- A cursor without a token is behind the last run. -/
theorem length_le_of_eq_nil (htokens : c.tokens = runs.drop k) (h : c.token.text = []) :
    runs.length ≤ k := by
  rw [tokens_of_eq_nil h] at htokens
  exact List.drop_eq_nil_iff.1 htokens.symm

/-- A cursor before no token stands at the end once the blanks are skipped. -/
theorem StandsIn.token_start_eq (hstands : StandsIn source c) (h : c.token.text = []) :
    c.token.start = .endOf source :=
  (hstands.skipWhile Text.isBlank).position_eq (skipBlanks_rest_eq_nil_iff.2 h)

/-- A word is asked for: the next run, if there is one and it is not too long. -/
theorem answers_word (hstands : StandsIn source c) (htokens : c.tokens = runs.drop k) :
    Answers source runs k c.position .word (c.reply .word) := by
  rw [reply, word, Token.check]
  by_cases hnil : c.token.text = []
  · rw [if_pos hnil, hstands.token_start_eq hnil]
    exact .missingWord (length_le_of_eq_nil htokens hnil)
  · have hrun := (getElem?_of_ne_nil htokens hnil).1
    rw [if_neg hnil]
    by_cases hlong : maxTokenLength < c.token.text.length
    · rw [if_pos hlong]
      exact .longWord hrun hlong
    · rw [if_neg hlong]
      exact .word hrun (Nat.le_of_not_lt hlong)

/-- A number is asked for: the next run has to be a finite literal, too. -/
theorem answers_number (hstands : StandsIn source c) (htokens : c.tokens = runs.drop k) :
    Answers source runs k c.position .number (c.reply .number) := by
  rw [reply, number, Token.number, Token.check]
  by_cases hnil : c.token.text = []
  · rw [if_pos hnil, hstands.token_start_eq hnil]
    exact .missingNumber (length_le_of_eq_nil htokens hnil)
  · have hrun := (getElem?_of_ne_nil htokens hnil).1
    rw [if_neg hnil]
    by_cases hlong : maxTokenLength < c.token.text.length
    · rw [if_pos hlong]
      exact .longNumber hrun hlong
    · rw [if_neg hlong]
      have hshort : c.token.text.length ≤ 4096 := Nat.le_of_not_lt hlong
      -- the text of the token decides the rest
      by_cases hliteral : Decimal.isLiteral c.token.text = true
      · cases hvalue : Binary64.parse? c.token.text with
        | none =>
          simp only [hliteral, hvalue, if_true]
          refine .invalidNumber hrun hshort fun _ x hx => ?_
          rw [hvalue] at hx
          cases hx
        | some x =>
          by_cases hfinite : x.isFinite = true
          · simp only [hliteral, hvalue, hfinite, if_true]
            exact .number hrun hshort hliteral hvalue hfinite
          · simp only [hliteral, hvalue, if_true, if_neg hfinite]
            refine .invalidNumber hrun hshort fun _ y hy => ?_
            rw [hvalue] at hy
            obtain rfl := Option.some.inj hy
            exact Bool.eq_false_iff.2 hfinite
      · simp only [if_neg hliteral]
        exact .invalidNumber hrun hshort fun h => absurd h hliteral

/-- The end is asked for: anything left is too much. -/
theorem answers_finish (hstands : StandsIn source c) (htokens : c.tokens = runs.drop k) :
    Answers source runs k c.position .finish (c.reply .finish) := by
  rw [reply, finish]
  by_cases hnil : c.token.text = []
  · simp only [skipBlanks_rest_eq_nil_iff.2 hnil, if_true]
    exact .finished (length_le_of_eq_nil htokens hnil)
  · simp only [skipBlanks_rest_eq_nil_iff, if_neg hnil]
    obtain ⟨before, hsource, hposition⟩ := standsIn_iff.1 (hstands.skipWhile Text.isBlank)
    exact .trailing (getElem?_of_ne_nil htokens hnil).1 hsource hposition

/-- Whether anything is left is whether a run is left. -/
theorem answers_hasMore (htokens : c.tokens = runs.drop k) :
    Answers source runs k c.position .hasMore (c.reply .hasMore) := by
  have hmore : c.hasMore = decide (k < runs.length) := by
    rw [Bool.eq_iff_iff, decide_eq_true_iff, hasMore_iff]
    constructor
    · intro h
      exact (List.getElem?_eq_some_iff.1 (getElem?_of_ne_nil htokens h).1).1
    · intro h hnil
      exact absurd (length_le_of_eq_nil htokens hnil) (Nat.not_le.2 h)
  rw [reply, hmore]
  exact .hasMore

/-- What one call gives, on a cursor whose tokens are the runs from `k` on. -/
theorem answers_of_tokens (hstands : StandsIn source c) (htokens : c.tokens = runs.drop k)
    (call : Call) : Answers source runs k c.position call (c.reply call) := by
  obtain ⟨before, hsource, hposition⟩ := standsIn_iff.1 hstands
  cases call with
  | word => exact answers_word hstands htokens
  | number => exact answers_number hstands htokens
  | finish => exact answers_finish hstands htokens
  | skip => exact .skipped
  | hasMore => exact answers_hasMore htokens
  | peek => exact .peek hsource hposition
  | remaining => exact .remaining hsource hposition

/-- A call takes the next run or none. -/
theorem tokens_next (htokens : c.tokens = runs.drop k) (call : Call) :
    (c.next call).tokens = runs.drop (k + if call.takesToken then 1 else 0) := by
  have htake : c.afterToken.tokens = runs.drop (k + 1) := by
    by_cases hnil : c.token.text = []
    · -- nothing but blanks was left, and the cursor is at the end
      have hlength := length_le_of_eq_nil htokens hnil
      have hrest : c.afterToken.rest = [] := by
        rw [afterToken, rest_skipWhile, skipBlanks_rest_eq_nil_iff.2 hnil]
        rfl
      have hnone : c.afterToken.token.text = [] := by
        rw [token, skipBlanks, rest_skipWhile, hrest]
        rfl
      rw [tokens_of_eq_nil hnone, List.drop_eq_nil_of_le (Nat.le_succ_of_le hlength)]
    · exact (getElem?_of_ne_nil htokens hnil).2
  cases call with
  | word | number => exact htake
  | finish | skip => exact (tokens_skipBlanks c).trans htokens
  | hasMore | peek | remaining => exact htokens

/-- Where a call leaves a cursor whose tokens are the runs from `k` on. -/
theorem position_next (hstands : StandsIn source c) (htokens : c.tokens = runs.drop k)
    (call : Call) : (c.next call).position = restsAt source runs k c.position call := by
  have hstart : c.skipBlanks.position = c.token.start := rfl
  have hend : c.afterToken.position = c.token.start.advanceBy c.token.text := rfl
  by_cases hnil : c.token.text = []
  · have hnone := List.getElem?_eq_none (length_le_of_eq_nil htokens hnil)
    have hat := hstands.token_start_eq hnil
    cases call with
    | word | number =>
      simp only [restsAt, hnone]
      exact hend.trans (by rw [hnil, hat]; rfl)
    | finish | skip =>
      simp only [restsAt, hnone]
      exact hstart.trans hat
    | hasMore | peek | remaining => rfl
  · have hrun := (getElem?_of_ne_nil htokens hnil).1
    cases call with
    | word | number =>
      simp only [restsAt, hrun]
      exact hend
    | finish | skip =>
      simp only [restsAt, hrun]
      exact hstart
    | hasMore | peek | remaining => rfl

end Call

/-! ### Any sequence of calls -/

/-- Calls take as many runs as there are reads of words and numbers among them. -/
theorem tokens_after {runs : List Token} {c : Cursor} {k : Nat} (htokens : c.tokens = runs.drop k)
    (calls : List Call) :
    (c.after calls).tokens = runs.drop (k + calls.countP Call.takesToken) := by
  induction calls generalizing c k with
  | nil => exact htokens
  | cons call calls ih =>
    rw [List.countP_cons, Nat.add_comm (calls.countP _), ← Nat.add_assoc]
    exact ih (tokens_next htokens call)

/-- **The reader loses, repeats and misplaces no token.** After any calls, failed ones included, the
cursor stands in the text and goes only forward, and the next call answers for run `k`, where `k`
counts the words and numbers asked for before. -/
theorem reply_after (source : String) (hlength : source.length < 2 ^ 32 - 1) :
    ∃ runs, RunsOf source.toList runs ∧ ∀ (done : List Call) (call : Call),
      let c := (ofList source.toList).after done
      let k := done.countP Call.takesToken
      StandsIn source c ∧ c.position.column < 2 ^ 32 ∧
        c.position.offset ≤ (c.next call).position.offset ∧
        Answers source runs k c.position call (c.reply call) ∧
        (c.next call).position = restsAt source runs k c.position call := by
  refine ⟨(ofList source.toList).tokens, runsOf_tokens _, fun done call => ?_⟩
  have hstands := (standsIn_ofList source).after done
  have htokens := tokens_after (c := ofList source.toList) (k := 0) rfl done
  rw [Nat.zero_add] at htokens
  refine ⟨hstands, ?_, offset_le_next _ call, answers_of_tokens hstands htokens call,
    position_next hstands htokens call⟩
  have hcolumn := hstands.column_le
  omega

/-- After a number was asked for in vain, the next one is the second run, `-2.5` exactly; the word
behind it is the third. -/
theorem reply_after_failed_number :
    ∃ runs, RunsOf "blur -2.5 x".toList runs ∧
      (let c := (ofList "blur -2.5 x".toList).after [.number]
        ∃ x, StandsIn "blur -2.5 x" c ∧
          Answers "blur -2.5 x" runs 1 c.position .number (.number (.ok x)) ∧
          x.negative = true ∧ 2 * x.magnitude = 5 * Binary64.one) ∧
      let c := (ofList "blur -2.5 x".toList).after [.number, .number]
      Answers "blur -2.5 x" runs 2 c.position .word (.word (.ok "x")) := by
  obtain ⟨runs, hruns, h⟩ := reply_after "blur -2.5 x" (by decide)
  obtain ⟨hstands, -, -, hnumber, -⟩ := h [.number] .number
  obtain ⟨-, -, -, hword, -⟩ := h [.number, .number] .word
  have hvalue : ((ofList "blur -2.5 x".toList).after [.number]).number.1 =
      .ok (.ofFraction true 5 2) := by
    decide +kernel
  have htext : ((ofList "blur -2.5 x".toList).after [.number, .number]).word.1 = .ok "x" := by
    decide +kernel
  rw [reply, hvalue] at hnumber
  rw [reply, htext] at hword
  exact ⟨runs, hruns, ⟨_, hstands, hnumber, by decide +kernel, by decide +kernel⟩, hword⟩

end Cursor
end ImageCheck
