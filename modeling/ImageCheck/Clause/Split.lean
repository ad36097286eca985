/-
# Splitting a clause

`SPEC_FULL` §4.6 and the grammar of §6; `split_parameters`, with `next_parameter`,
`read_value`, `read_quoted` and `take_until`.

A clause is a sequence of segments between commas. A segment of blanks says
nothing; any other is a parameter:

```text
parameter := key | key ':' blanks value
key       := characters other than ':' and ',', right-trimmed, not empty
value     := characters other than ',', right-trimmed
           | '"' quoted '"' blanks
```

Inside quotes a comma is an ordinary character, `\"` and `\\` stand for the
second character, and a backslash before any other character stands for itself.

* `split`: the parameters of a clause, in order;
* `length_readParameter_lt`: a parameter takes up at least one character, so splitting ends.
-/

import ImageCheck.Clause.Parameter

namespace ImageCheck
namespace Clause

/-- The text inside quotes and the cursor after the closing quote, if there is one; `value` holds,
last character first, what has been read. -/
def readQuoted (value : List Char) : Position → List Char → Option (List Char × Cursor)
  | _, [] => none
  | p, '"' :: rest => some (value.reverse, ⟨p.advance '"', rest⟩)
  | _, ['\\'] => none
  | p, '\\' :: ch :: rest =>
    let q := (p.advance '\\').advance ch
    if ch = '"' ∨ ch = '\\' then readQuoted (ch :: value) q rest
    else readQuoted (ch :: '\\' :: value) q rest
  | p, ch :: rest => readQuoted (ch :: value) (p.advance ch) rest

/-- A character that ends an unquoted value. -/
def endsValue (ch : Char) : Bool := ch = ','

/-- A character that ends a key. -/
def endsKey (ch : Char) : Bool := ch = ':' || ch = ','

/-- The characters before the next one in the class `stop`, right-trimmed. -/
def textUntil (stop : Char → Bool) (c : Cursor) : List Char :=
  Text.trimEnd (c.rest.takeWhile fun ch => !stop ch)

/-- The cursor before the next character in the class `stop`. -/
def skipUntil (stop : Char → Bool) (c : Cursor) : Cursor :=
  c.skipWhile fun ch => !stop ch

/-- Accepts a cursor after a quoted value if only blanks stand before it and the next comma. -/
def afterQuoted (c : Cursor) : Except SplitError Cursor :=
  let c := c.skipBlanks
  match c.rest with
  | [] => .ok c
  | ch :: _ =>
    if endsValue ch then .ok c
    else .error (.unexpectedAfterQuote (String.ofList (textUntil endsValue c)) c.position)

/-- The value that follows a colon, and the cursor after it. -/
def readValue (c : Cursor) : Except SplitError (List Char × Cursor) :=
  let c := c.skipBlanks
  match c.rest with
  | '"' :: rest =>
    match readQuoted [] (c.position.advance '"') rest with
    | none => .error (.unterminatedQuote c.position)
    | some (value, after) =>
      match afterQuoted after with
      | .error e => .error e
      | .ok after => .ok (value, after)
  | _ => .ok (textUntil endsValue c, skipUntil endsValue c)

/-- The value of a parameter whose name has just been read: the text after a colon, or nothing. -/
def readOptionalValue (c : Cursor) : Except SplitError (List Char × Cursor) :=
  match c.rest with
  | ':' :: rest => readValue ⟨c.position.advance ':', rest⟩
  | _ => .ok ([], c)

/-- The cursor after a comma, if one follows. -/
def skipComma (c : Cursor) : Cursor :=
  match c.rest with
  | ',' :: rest => ⟨c.position.advance ',', rest⟩
  | _ => c

/-- The parameter that begins at the cursor, and the cursor after it and its comma. -/
def readParameter (c : Cursor) : Except SplitError (Parameter × Cursor) :=
  let key := textUntil endsKey c
  if key = [] then .error (.emptyKey c.position)
  else
    match readOptionalValue (skipUntil endsKey c) with
    | .error e => .error e
    | .ok (value, after) =>
      .ok (⟨String.ofList key, String.ofList value, c.position⟩, skipComma after)

/-- What is left behind the closing quote is no longer than what was left before. -/
theorem length_readQuoted_le {value : List Char} {p : Position} {cs : List Char}
    {v : List Char} {c : Cursor} (h : readQuoted value p cs = some (v, c)) :
    c.rest.length ≤ cs.length := by
  fun_induction readQuoted value p cs with
  | case1 => simp at h
  | case2 => grind
  | case3 => simp at h
  | case4 _ _ _ _ _ _ ih => have := ih h; grind
  | case5 _ _ _ _ _ _ ih => have := ih h; grind
  | case6 => grind

/-- Passing the blanks behind a closing quote leaves no more than before. -/
theorem length_afterQuoted_le {c d : Cursor} (h : afterQuoted c = .ok d) :
    d.rest.length ≤ c.rest.length := by
  have hb := c.length_skipBlanks_le
  unfold afterQuoted at h
  grind

/-- A value is taken from the front of what is left. -/
theorem length_readValue_le {c d : Cursor} {v : List Char} (h : readValue c = .ok (v, d)) :
    d.rest.length ≤ c.rest.length := by
  have hb := c.length_skipBlanks_le
  have hs := Cursor.length_skipWhile_le (fun ch => !endsValue ch) c.skipBlanks
  unfold readValue at h
  simp only at h
  split at h
  · rename_i rest hrest
    split at h
    · simp at h
    · rename_i after hq
      have h1 := length_readQuoted_le hq
      have h2 : c.skipBlanks.rest.length = rest.length + 1 := by simp [hrest]
      split at h
      · simp at h
      · rename_i hd
        have h3 := length_afterQuoted_le hd
        simp only [Except.ok.injEq, Prod.mk.injEq] at h
        obtain ⟨-, rfl⟩ := h
        omega
  · simp only [Except.ok.injEq, Prod.mk.injEq] at h
    obtain ⟨-, rfl⟩ := h
    exact Nat.le_trans hs hb

/-- So is a value that may be missing. -/
theorem length_readOptionalValue_le {c d : Cursor} {v : List Char}
    (h : readOptionalValue c = .ok (v, d)) : d.rest.length ≤ c.rest.length := by
  unfold readOptionalValue at h
  split at h
  · rename_i rest hrest
    have := length_readValue_le h
    simp only [hrest, List.length_cons]
    exact Nat.le_succ_of_le this
  · simp_all

/-- Passing a comma leaves no more than before. -/
theorem length_skipComma_le (c : Cursor) : (skipComma c).rest.length ≤ c.rest.length := by
  unfold skipComma
  split
  · rename_i h; simp [h]
  · exact Nat.le_refl _

/-- **A parameter takes up at least one character**, that of its name. -/
theorem length_readParameter_lt {c d : Cursor} {p : Parameter}
    (h : readParameter c = .ok (p, d)) : d.rest.length < c.rest.length := by
  unfold readParameter at h
  simp only at h
  split at h
  · simp at h
  · rename_i hkey
    have hne : c.rest.takeWhile (fun ch => !endsKey ch) ≠ [] := by
      intro hnil
      exact hkey (by simp [textUntil, hnil, Text.trimEnd])
    have h1 := Cursor.length_skipWhile_lt hne
    split at h
    · simp at h
    · rename_i value after hv
      have h2 := length_readOptionalValue_le hv
      simp only [Except.ok.injEq, Prod.mk.injEq] at h
      obtain ⟨-, rfl⟩ := h
      have h3 := length_skipComma_le after
      unfold skipUntil at h2
      omega

/-- The parameters from a cursor on, after those in `read`, last first. -/
def splitFrom (read : List Parameter) (c : Cursor) : Except SplitError (List Parameter) :=
  match _hrest : c.skipBlanks.rest with
  | [] => .ok read.reverse
  | ',' :: rest => splitFrom read ⟨c.skipBlanks.position.advance ',', rest⟩
  | _ :: _ =>
    match _hparam : readParameter c.skipBlanks with
    | .error e => .error e
    | .ok (p, after) => splitFrom (p :: read) after
termination_by c.rest.length
decreasing_by
  · have h := c.length_skipBlanks_le
    simp only [_hrest, List.length_cons] at h
    exact h
  · exact Nat.lt_of_lt_of_le (length_readParameter_lt _hparam) c.length_skipBlanks_le

/-- The parameters of a clause, in order. A clause of too many bytes is not looked at. -/
def split (text : String) : Except SplitError (List Parameter) :=
  let cs := text.toList
  if maxClauseBytes < Text.bytes cs then .error (.clauseTooLong (Text.bytes cs))
  else splitFrom [] (Cursor.ofList cs)

end Clause
end ImageCheck
