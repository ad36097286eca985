/-
# Filters by their runs

`SPEC_FULL` §4.2; `parse_image_filter`.

What a filter expression comes to depends on its runs `t₀`, `t₁`, `t₂`, … alone:

| the runs | outcome |
| --- | --- |
| no `t₀` | a word is missing |
| `t₀` too long | that |
| no `t₁` | a number is missing |
| `t₁` too long | that |
| `t₁` no decimal literal, or not finite | an invalid number |
| `t₀` no name of a filter | an unknown filter |
| some `t₂` | trailing content, from `t₂` to the last run |
| otherwise | the filter `t₀` with the whole part of `t₁`, kept within 32 bits |

The first row that fits counts. `FilterOutcome` is this table; its rows are put together
from the answers that a cursor gives, call by call (`Cursor.Answers`).

Two texts with the same runs may have different blanks between them. `filterVerdict` says
what comes of a list of runs without any place, and `FilterOutcome.unplaced_eq` that this is
all there is to an outcome but for places and the blanks inside trailing content.
-/

import ImageCheck.Compile.Value
import ImageCheck.Proofs.Number.ReadBack
import ImageCheck.Proofs.Text.Place

namespace ImageCheck

/-! ### Names and numbers -/

namespace FilterKind

/-- A kind of filter is looked up by its name. -/
theorem ofName?_eq_some_iff {name : String} {kind : FilterKind} :
    ofName? name = some kind ↔ name = kind.name := by
  constructor
  · intro h
    simpa [eq_comm] using List.find?_some h
  · rintro rfl
    exact ofName?_name kind

theorem ofName?_ofList_eq_some_iff {name : List Char} {kind : FilterKind} :
    ofName? (String.ofList name) = some kind ↔ name = kind.name.toList := by
  rw [ofName?_eq_some_iff, ← String.toList_inj, String.toList_ofList]

/-- A word that names no kind of filter is unknown. -/
theorem ofName?_ofList_eq_none_iff {name : List Char} :
    ofName? (String.ofList name) = none ↔ ∀ kind : FilterKind, name ≠ kind.name.toList := by
  simp only [Option.eq_none_iff_forall_ne_some, ne_eq, ofName?_ofList_eq_some_iff]

end FilterKind

/-- A text is a decimal literal with the finite value `x`. -/
structure IsNumber (text : List Char) (x : Binary64) : Prop where
  literal : Decimal.Literal text
  value : Binary64.parse? text = some x
  finite : x.isFinite = true

/-- A word that the reader refuses is no number. -/
theorem not_isNumber {text : List Char} (h : Decimal.isLiteral text = true →
    ∀ x, Binary64.parse? text = some x → x.isFinite = false) (x : Binary64) :
    ¬ IsNumber text x := by
  intro hnumber
  have hinfinite := h (Decimal.isLiteral_iff.2 hnumber.literal) x hnumber.value
  rw [hnumber.finite] at hinfinite
  cases hinfinite

namespace Binary64

/-- A number without its fraction, kept within 32 bits. -/
inductive Truncates (x : Binary64) : Int32 → Prop
  /-- The whole part of the magnitude, with the sign. -/
  | whole {n : Nat} {i : Int32} (hlow : n * one ≤ x.magnitude)
      (hhigh : x.magnitude < (n + 1) * one) (hi : i.toInt = if x.negative then -(n : Int) else n) :
      Truncates x i
  /-- The largest number of 32 bits, for what is beyond it. -/
  | above (hsign : x.negative = false) (h : 2 ^ 31 * one ≤ x.magnitude) :
      Truncates x Int32.maxValue
  /-- The least number of 32 bits, for what is beyond it. -/
  | below (hsign : x.negative = true) (h : 2 ^ 31 * one ≤ x.magnitude) :
      Truncates x Int32.minValue

theorem truncate_eq (x : Binary64) :
    x.truncate = if x.negative then -((x.magnitude / one : Nat) : Int)
      else ((x.magnitude / one : Nat) : Int) := rfl

/-- A whole part beyond 32 bits gives the bound. -/
theorem truncate32_of_le {x : Binary64} (h : 2 ^ 31 ≤ x.magnitude / one) :
    x.truncate32 = if x.negative then Int32.minValue else Int32.maxValue := by
  rw [truncate32, truncate_eq]
  generalize x.magnitude / one = n at h
  split
  · rw [Int.min_eq_right (by omega), Int.max_eq_left (by omega)]
    rfl
  · rw [Int.min_eq_left (by omega), Int.max_eq_right (by omega)]
    rfl

/-- A whole part within 32 bits is kept. -/
theorem truncate32_of_lt {x : Binary64} (h : x.magnitude / one < 2 ^ 31) :
    x.truncate32.toInt = x.truncate := by
  rw [truncate32, truncate_eq]
  generalize x.magnitude / one = n at h
  split <;>
    rw [Int.min_eq_right (by omega), Int.max_eq_right (by omega)] <;>
    exact Int32.toInt_ofInt_of_le (by omega) (by omega)

/-- A number has one whole part within 32 bits, and `truncate32` is it. -/
theorem truncates_iff {x : Binary64} {i : Int32} : Truncates x i ↔ i = x.truncate32 := by
  constructor
  · rintro (⟨hlow, hhigh, hi⟩ | ⟨hsign, h⟩ | ⟨hsign, h⟩)
    · rename_i n
      have hn : x.magnitude / one = n := Nat.div_eq_of_lt_le hlow hhigh
      exact (Decimal.truncate32_eq (by rw [truncate_eq, hn, hi])).symm
    · rw [truncate32_of_le ((Nat.le_div_iff_mul_le one_pos).2 h), hsign]
      rfl
    · rw [truncate32_of_le ((Nat.le_div_iff_mul_le one_pos).2 h), hsign]
      rfl
  · rintro rfl
    by_cases hbound : x.magnitude / one < 2 ^ 31
    · refine .whole (Nat.div_mul_le_self _ _) ?_ (truncate32_of_lt hbound)
      exact Nat.lt_mul_of_div_lt (Nat.lt_succ_self _) one_pos
    · have hle : 2 ^ 31 ≤ x.magnitude / one := Nat.le_of_not_lt hbound
      have hmagnitude : 2 ^ 31 * one ≤ x.magnitude := (Nat.le_div_iff_mul_le one_pos).1 hle
      rw [truncate32_of_le hle]
      cases hsign : x.negative with
      | false => exact .above hsign hmagnitude
      | true => exact .below hsign hmagnitude

end Binary64

/-! ### Words -/

/-- The texts of the runs of a text. -/
def wordsOf (cs : List Char) : List (List Char) := (Cursor.ofList cs).tokens.map Token.text

/-- Words with one blank between each two. -/
def joined (words : List (List Char)) : String := String.ofList ([' '].intercalate words)

namespace Cursor

/-- What is left at the end of a value: nothing but blanks, or content from the next token to the
last. -/
theorem finish_cases {text : String} {c : Cursor} (hstands : StandsIn text c) :
    c.tokens = [] ∧ c.finish.1 = .ok () ∨
      ∃ before trail blanks, text.toList = before ++ (trail ++ blanks) ∧
        (∀ ch ∈ blanks, Text.isBlank ch = true) ∧
        (∀ ch ∈ trail.getLast?, Text.isBlank ch = false) ∧
        wordsOf trail = c.tokens.map Token.text ∧
        c.tokens.head?.map Token.start = some (Position.start.advanceBy before) ∧
        c.finish.1 =
          .error (.trailingContent (String.ofList trail) (Position.start.advanceBy before)) := by
  by_cases hnil : c.token.text = []
  · left
    refine ⟨tokens_of_eq_nil hnil, ?_⟩
    simp only [finish, skipBlanks_rest_eq_nil_iff.2 hnil, if_true]
  · right
    obtain ⟨before, htext, hposition⟩ := standsIn_iff.1 hstands.skipBlanks
    obtain ⟨blanks, hrest, hblanks, hlast⟩ := Text.exists_blanks_trimEnd c.skipBlanks.rest
    have hwords : wordsOf (Text.trimEnd c.skipBlanks.rest) = c.tokens.map Token.text := by
      have happend := tokens_append_blanks
        ⟨c.skipBlanks.position, Text.trimEnd c.skipBlanks.rest⟩ hblanks
      rw [← hrest] at happend
      rw [← tokens_skipBlanks c]
      exact (map_text_tokens ⟨_, _⟩ _).trans (congrArg (List.map Token.text) happend.symm)
    refine ⟨before, _, blanks, hrest ▸ htext, hblanks, hlast, hwords, ?_, ?_⟩
    · rw [tokens_of_ne_nil hnil, ← hposition]
      rfl
    · simp only [finish, skipBlanks_rest_eq_nil_iff, if_neg hnil, hposition]

end Cursor

/-! ### The table -/

/-- What a filter expression with these runs comes to. -/
inductive FilterOutcome (text : String) : List Token → Except CompileError FilterOp → Prop
  | missingWord : FilterOutcome text [] (.error (.read (.missingWord (.endOf text))))
  | longWord {t₀ : Token} {rest : List Token} (hlong : 4096 < t₀.text.length) :
      FilterOutcome text (t₀ :: rest) (.error (.read (.tokenTooLong t₀.text.length t₀.start)))
  | missingNumber {t₀ : Token} (hshort₀ : t₀.text.length ≤ 4096) :
      FilterOutcome text [t₀] (.error (.read (.missingNumber (.endOf text))))
  | longNumber {t₀ t₁ : Token} {rest : List Token} (hshort₀ : t₀.text.length ≤ 4096)
      (hlong : 4096 < t₁.text.length) :
      FilterOutcome text (t₀ :: t₁ :: rest)
        (.error (.read (.tokenTooLong t₁.text.length t₁.start)))
  | invalidNumber {t₀ t₁ : Token} {rest : List Token} (hshort₀ : t₀.text.length ≤ 4096)
      (hshort₁ : t₁.text.length ≤ 4096) (hinvalid : ∀ x, ¬ IsNumber t₁.text x) :
      FilterOutcome text (t₀ :: t₁ :: rest)
        (.error (.read (.invalidNumber (String.ofList t₁.text) t₁.start)))
  | unknownFilter {t₀ t₁ : Token} {rest : List Token} {x : Binary64}
      (hshort₀ : t₀.text.length ≤ 4096) (hshort₁ : t₁.text.length ≤ 4096)
      (hnumber : IsNumber t₁.text x) (hunknown : ∀ kind : FilterKind, t₀.text ≠ kind.name.toList) :
      FilterOutcome text (t₀ :: t₁ :: rest) (.error (.unknownFilter (String.ofList t₀.text)))
  | trailing {t₀ t₁ t₂ : Token} {rest : List Token} {x : Binary64} {kind : FilterKind}
      {before trail blanks : List Char} (hshort₀ : t₀.text.length ≤ 4096)
      (hshort₁ : t₁.text.length ≤ 4096) (hnumber : IsNumber t₁.text x)
      (hname : t₀.text = kind.name.toList) (htext : text.toList = before ++ (trail ++ blanks))
      (hstart : t₂.start = Position.start.advanceBy before)
      (hblanks : ∀ ch ∈ blanks, Text.isBlank ch = true)
      (hlast : ∀ ch ∈ trail.getLast?, Text.isBlank ch = false)
      (hwords : wordsOf trail = (t₂ :: rest).map Token.text) :
      FilterOutcome text (t₀ :: t₁ :: t₂ :: rest)
        (.error (.read (.trailingContent (String.ofList trail) t₂.start)))
  | filter {t₀ t₁ : Token} {x : Binary64} {kind : FilterKind} {value : Int32}
      (hshort₀ : t₀.text.length ≤ 4096) (hshort₁ : t₁.text.length ≤ 4096)
      (hnumber : IsNumber t₁.text x) (hname : t₀.text = kind.name.toList)
      (hvalue : x.Truncates value) : FilterOutcome text [t₀, t₁] (.ok ⟨kind, value⟩)

namespace Value

/-- What `filter` does behind the number. -/
def filterEnd (name : String) (x : Binary64) (c : Cursor) : Except CompileError FilterOp :=
  match FilterKind.ofName? name with
  | none => .error (.unknownFilter name)
  | some kind =>
    match c.finish.1 with
    | .error e => .error (.read e)
    | .ok () => .ok ⟨kind, x.truncate32⟩

/-- What `filter` does behind the name. -/
def filterRest (name : String) (c : Cursor) : Except CompileError FilterOp :=
  match c.number with
  | (.error e, _) => .error (.read e)
  | (.ok x, c) => filterEnd name x c

/-- A filter is read name first, and the rest behind it. -/
theorem filter_eq (text : String) :
    filter text =
      match (Cursor.ofList text.toList).word with
      | (.error e, _) => .error (.read e)
      | (.ok name, c) => filterRest name c := rfl

section Standing

variable {text : String} {c : Cursor} {t₀ t₁ : Token}

/-- Behind a number, the name and then the end decide. -/
theorem filterOutcome_filterEnd (hstands : c.StandsIn text) (hshort₀ : t₀.text.length ≤ 4096)
    (hshort₁ : t₁.text.length ≤ 4096) {x : Binary64} (hnumber : IsNumber t₁.text x) :
    FilterOutcome text (t₀ :: t₁ :: c.tokens) (filterEnd (String.ofList t₀.text) x c) := by
  rw [filterEnd]
  cases hkind : FilterKind.ofName? (String.ofList t₀.text) with
  | none =>
    exact .unknownFilter hshort₀ hshort₁ hnumber (FilterKind.ofName?_ofList_eq_none_iff.1 hkind)
  | some kind =>
    have hname := FilterKind.ofName?_ofList_eq_some_iff.1 hkind
    obtain ⟨hnil, hfinish⟩ |
      ⟨before, trail, blanks, htext, hblanks, hlast, hwords, hhead, hfinish⟩ :=
        Cursor.finish_cases hstands
    · simp only [hnil, hfinish]
      exact .filter hshort₀ hshort₁ hnumber hname (Binary64.truncates_iff.2 rfl)
    · cases htokens : c.tokens with
      | nil =>
        rw [htokens] at hhead
        cases hhead
      | cons t₂ rest =>
        rw [htokens] at hhead hwords
        have hstart : t₂.start = Position.start.advanceBy before := Option.some.inj hhead
        simp only [hfinish, ← hstart]
        exact .trailing hshort₀ hshort₁ hnumber hname htext hstart hblanks hlast hwords

/-- Behind a name, the number and then all that follows decides. -/
theorem filterOutcome_filterRest (hstands : c.StandsIn text) (hshort₀ : t₀.text.length ≤ 4096) :
    FilterOutcome text (t₀ :: c.tokens) (filterRest (String.ofList t₀.text) c) := by
  have hanswer := Cursor.answers_number hstands (List.drop_zero (l := c.tokens)).symm
  have htokens := Cursor.tokens_next (List.drop_zero (l := c.tokens)).symm .number
  have hafter := hstands.next .number
  simp only [Cursor.reply, Cursor.next] at hanswer htokens hafter
  rw [filterRest]
  generalize c.tokens = runs at hanswer htokens ⊢
  generalize c.number = read at hanswer htokens hafter ⊢
  obtain ⟨result, d⟩ := read
  cases hanswer with
  | missingNumber h =>
    obtain rfl := List.eq_nil_of_length_eq_zero (Nat.le_zero.1 h)
    exact .missingNumber hshort₀
  | longNumber h hlong =>
    obtain ⟨rest, rfl⟩ := List.head?_eq_some_iff.1 (List.head?_eq_getElem?.trans h)
    exact .longNumber hshort₀ hlong
  | invalidNumber h hshort₁ hinvalid =>
    obtain ⟨rest, rfl⟩ := List.head?_eq_some_iff.1 (List.head?_eq_getElem?.trans h)
    exact .invalidNumber hshort₀ hshort₁ (not_isNumber hinvalid)
  | number h hshort₁ hliteral hvalue hfinite =>
    obtain ⟨rest, rfl⟩ := List.head?_eq_some_iff.1 (List.head?_eq_getElem?.trans h)
    obtain rfl : d.tokens = rest := htokens
    exact filterOutcome_filterEnd hafter hshort₀ hshort₁
      ⟨Decimal.isLiteral_iff.1 hliteral, hvalue, hfinite⟩

end Standing

/-- Every filter expression is in the table, with the tokens that a cursor finds. -/
theorem filterOutcome_tokens (text : String) :
    FilterOutcome text (Cursor.ofList text.toList).tokens (filter text) := by
  have hstands := Cursor.standsIn_ofList text
  rw [filter_eq]
  generalize Cursor.ofList text.toList = c at hstands ⊢
  have hanswer := Cursor.answers_word hstands (List.drop_zero (l := c.tokens)).symm
  have htokens := Cursor.tokens_next (List.drop_zero (l := c.tokens)).symm .word
  have hafter := hstands.next .word
  simp only [Cursor.reply, Cursor.next] at hanswer htokens hafter
  generalize c.tokens = runs at hanswer htokens ⊢
  generalize c.word = read at hanswer htokens hafter ⊢
  obtain ⟨result, d⟩ := read
  cases hanswer with
  | missingWord h =>
    obtain rfl := List.eq_nil_of_length_eq_zero (Nat.le_zero.1 h)
    exact .missingWord
  | longWord h hlong =>
    obtain ⟨rest, rfl⟩ := List.head?_eq_some_iff.1 (List.head?_eq_getElem?.trans h)
    exact .longWord hlong
  | word h hshort₀ =>
    obtain ⟨rest, rfl⟩ := List.head?_eq_some_iff.1 (List.head?_eq_getElem?.trans h)
    obtain rfl : d.tokens = rest := htokens
    exact filterOutcome_filterRest hafter hshort₀

end Value

/-! ### Outcomes without places -/

/-- A failure to read with every place at the start, and with one blank between the words of
trailing content. -/
def ReadError.unplaced : ReadError → ReadError
  | missingWord _ => .missingWord .start
  | missingNumber _ => .missingNumber .start
  | invalidNumber text _ => .invalidNumber text .start
  | tokenTooLong length _ => .tokenTooLong length .start
  | trailingContent text _ => .trailingContent (joined (wordsOf text.toList)) .start

/-- A failure with its failure to read, if it is one, unplaced. -/
def CompileError.unplaced : CompileError → CompileError
  | read cause => .read cause.unplaced
  | e => e

/-- The number of a word, if it is one. -/
def number? (w : List Char) : Option Binary64 :=
  if Decimal.isLiteral w then (Binary64.parse? w).filter Binary64.isFinite else none

/-- The number of a word is the one that the word is. -/
theorem number?_eq_some_iff {w : List Char} {x : Binary64} : number? w = some x ↔ IsNumber w x := by
  rw [number?]
  constructor
  · intro h
    split at h
    · rename_i hliteral
      obtain ⟨hvalue, hfinite⟩ := Option.filter_eq_some_iff.1 h
      exact ⟨Decimal.isLiteral_iff.1 hliteral, hvalue, hfinite⟩
    · cases h
  · intro h
    rw [if_pos (Decimal.isLiteral_iff.2 h.literal), Option.filter_eq_some_iff]
    exact ⟨h.value, h.finite⟩

/-- A word without a number is no number. -/
theorem number?_eq_none_iff {w : List Char} : number? w = none ↔ ∀ x, ¬ IsNumber w x := by
  simp only [Option.eq_none_iff_forall_ne_some, ne_eq, number?_eq_some_iff]

/-- The outcome of a filter expression with these words, unplaced. -/
def filterVerdict : List (List Char) → Except CompileError FilterOp
  | [] => .error (.read (.missingWord .start))
  | name :: words =>
    if 4096 < name.length then .error (.read (.tokenTooLong name.length .start))
    else
      match words with
      | [] => .error (.read (.missingNumber .start))
      | amount :: more =>
        if 4096 < amount.length then .error (.read (.tokenTooLong amount.length .start))
        else
          match number? amount, FilterKind.ofName? (String.ofList name), more with
          | none, _, _ => .error (.read (.invalidNumber (String.ofList amount) .start))
          | some _, none, _ => .error (.unknownFilter (String.ofList name))
          | some x, some kind, [] => .ok ⟨kind, x.truncate32⟩
          | some _, some _, more => .error (.read (.trailingContent (joined more) .start))

/-- What comes of a filter expression depends on its words alone, but for places and the blanks
inside trailing content. -/
theorem FilterOutcome.unplaced_eq {text : String} {runs : List Token}
    {outcome : Except CompileError FilterOp} (h : FilterOutcome text runs outcome) :
    outcome.mapError CompileError.unplaced = filterVerdict (runs.map Token.text) := by
  cases h with
  | missingWord => rfl
  | longWord hlong =>
    simp only [List.map_cons, filterVerdict, if_pos hlong]
    rfl
  | missingNumber hshort₀ =>
    simp only [List.map_cons, List.map_nil, filterVerdict, if_neg (Nat.not_lt.2 hshort₀)]
    rfl
  | longNumber hshort₀ hlong =>
    simp only [List.map_cons, filterVerdict, if_neg (Nat.not_lt.2 hshort₀), if_pos hlong]
    rfl
  | invalidNumber hshort₀ hshort₁ hinvalid =>
    simp only [List.map_cons, filterVerdict, if_neg (Nat.not_lt.2 hshort₀),
      if_neg (Nat.not_lt.2 hshort₁), number?_eq_none_iff.2 hinvalid]
    rfl
  | unknownFilter hshort₀ hshort₁ hnumber hunknown =>
    simp only [List.map_cons, filterVerdict, if_neg (Nat.not_lt.2 hshort₀),
      if_neg (Nat.not_lt.2 hshort₁), number?_eq_some_iff.2 hnumber,
      FilterKind.ofName?_ofList_eq_none_iff.2 hunknown]
    rfl
  | trailing hshort₀ hshort₁ hnumber hname _ _ _ _ hwords =>
    have hname := FilterKind.ofName?_ofList_eq_some_iff.2 hname
    simp only [List.map_cons, filterVerdict, if_neg (Nat.not_lt.2 hshort₀),
      if_neg (Nat.not_lt.2 hshort₁), number?_eq_some_iff.2 hnumber, hname, Except.mapError,
      CompileError.unplaced, ReadError.unplaced, String.toList_ofList, hwords]
  | filter hshort₀ hshort₁ hnumber hname hvalue =>
    have hname := FilterKind.ofName?_ofList_eq_some_iff.2 hname
    simp only [List.map_cons, List.map_nil, filterVerdict, if_neg (Nat.not_lt.2 hshort₀),
      if_neg (Nat.not_lt.2 hshort₁), number?_eq_some_iff.2 hnumber, hname,
      ← Binary64.truncates_iff.1 hvalue]
    rfl

/-! ### Columns -/

/-- The place of a failure to read lies within the text. -/
theorem FilterOutcome.stop_column_le {text : String} {runs : List Token}
    (hruns : RunsOf text.toList runs) {e : ReadError}
    (h : FilterOutcome text runs (.error (.read e))) : e.span.stop.column ≤ 1 + text.length := by
  have hfound {t : Token} (ht : t ∈ runs) : Found text t.text t.start :=
    ((hruns.mem_iff t).1 ht).found
  cases h with
  | missingWord | missingNumber => exact Nat.le_refl _
  | longWord | longNumber => exact (hfound (by simp)).column_add_length_le
  | invalidNumber =>
    rw [ReadError.span, String.toList_ofList]
    exact (hfound (by simp)).stop_column_le
  | trailing _ _ _ _ htext hstart =>
    rw [ReadError.span, String.toList_ofList, hstart]
    exact (found_of_eq_append htext).stop_column_le

/-! ### The outcome -/

namespace Value

/-- **A filter expression by its runs.** The outcome is the row of the table that the runs fall
into, and its columns fit 32 bits. A text whose runs read the same has the same outcome, but for
places and the blanks inside trailing content. -/
theorem filter_outcome (text : String) (hlength : text.length < 2 ^ 32 - 1) :
    ∃ runs, RunsOf text.toList runs ∧ FilterOutcome text runs (filter text) ∧
      (∀ e, filter text = .error (.read e) → e.span.stop.column < 2 ^ 32) ∧
      ∀ text' runs', RunsOf text'.toList runs' → runs'.map Token.text = runs.map Token.text →
        (filter text').mapError CompileError.unplaced =
          (filter text).mapError CompileError.unplaced := by
  have hruns := Cursor.runsOf_tokens text.toList
  have houtcome := filterOutcome_tokens text
  refine ⟨_, hruns, houtcome, fun e he => ?_, fun text' runs' hruns' hsame => ?_⟩
  · have hcolumn := FilterOutcome.stop_column_le hruns (he ▸ houtcome)
    omega
  · obtain rfl := hruns'.unique (Cursor.runsOf_tokens text'.toList)
    rw [(filterOutcome_tokens text').unplaced_eq, houtcome.unplaced_eq, hsame]

/-- Two words behind the number of a filter, with more blanks between them and with fewer. Without
them the filter takes the whole part of the number, and the number is the one that stands there. -/
theorem filter_outcome_spaced :
    filter " blur\t3.9 é  x " = .error (.read (.trailingContent "é  x" ⟨10, 11⟩)) ∧
      (filter "blur 3.9 é x").mapError CompileError.unplaced =
        .error (.read (.trailingContent "é x" .start)) ∧
      FilterOutcome "blur\t-2.5 " [⟨⟨0, 1⟩, "blur".toList⟩, ⟨⟨5, 6⟩, "-2.5".toList⟩]
        (.ok ⟨.blur, -2⟩) ∧
      IsNumber "-2.5".toList (.ofFraction true 5 2) := by
  obtain ⟨runs, hruns, -, -, hsame⟩ := filter_outcome " blur\t3.9 é  x " (by decide)
  obtain ⟨runs', hruns', houtcome, -, -⟩ := filter_outcome "blur\t-2.5 " (by decide)
  have heval : filter " blur\t3.9 é  x " = .error (.read (.trailingContent "é  x" ⟨10, 11⟩)) := by
    decide +kernel
  have heval' : filter "blur\t-2.5 " = .ok ⟨.blur, -2⟩ := by
    decide +kernel
  obtain rfl := hruns.unique (Cursor.runsOf_tokens _)
  obtain rfl := hruns'.unique (Cursor.runsOf_tokens _)
  refine ⟨heval, ?_, ?_, ?_⟩
  · rw [hsame _ _ (Cursor.runsOf_tokens _) (by decide +kernel), heval]
    decide +kernel
  · have htokens : (Cursor.ofList "blur\t-2.5 ".toList).tokens =
        [⟨⟨0, 1⟩, "blur".toList⟩, ⟨⟨5, 6⟩, "-2.5".toList⟩] := by
      decide +kernel
    rwa [heval', htokens] at houtcome
  · rw [← number?_eq_some_iff]
    decide +kernel

end Value
end ImageCheck
