/-
# Tokens of JSON text

`SPEC_FULL` §8a, Serialization; the reading side of the derived forms.

A JSON text is first cut into brackets, commas, colons, quoted texts and words. A
word is a maximal run of other characters; it must be `null`, `true`, `false` or
a number. Blanks between tokens are the space, the tab and the two line ends.

A quoted text may name characters by `\u` and four hexadecimal digits, a
character beyond U+FFFF by two of them (a surrogate pair). One half of a pair
without the other is well-formed but names no character; the text is then `none`.

* `Json.tokens?`: the tokens of a text, if every one is well-formed.
-/

import ImageCheck.Json.Basic
import ImageCheck.Number.Decimal
import ImageCheck.Text.Hex

namespace ImageCheck
namespace Json

/-- A token of JSON text. -/
inductive Token where
  | openArray
  | closeArray
  | openObject
  | closeObject
  | comma
  | colon
  /-- A quoted text, `none` if it names half of a surrogate pair. -/
  | text (s : Option String)
  /-- A word. -/
  | word (value : Json)

/-- A blank between tokens. -/
def isBlank (c : Char) : Bool :=
  c = ' ' || c = '\t' || c = '\n' || c = '\r'

/-- The token of a single character. -/
def punctuation? (c : Char) : Option Token :=
  if c = '[' then some .openArray
  else if c = ']' then some .closeArray
  else if c = '\x7b' then some .openObject
  else if c = '\x7d' then some .closeObject
  else if c = ',' then some .comma
  else if c = ':' then some .colon
  else none

/-- A character of a word. -/
def inWord (c : Char) : Bool :=
  !isBlank c && c != '"' && (punctuation? c).isNone

/-- The first half of a surrogate pair. -/
def isHighSurrogate (n : Nat) : Bool := 0xD800 ≤ n && n ≤ 0xDBFF

/-- The second half of a surrogate pair. -/
def isLowSurrogate (n : Nat) : Bool := 0xDC00 ≤ n && n ≤ 0xDFFF

/-- The character that a surrogate pair names. -/
def ofSurrogates (high low : Nat) : Char :=
  Char.ofNat (0x10000 + (high - 0xD800) * 0x400 + (low - 0xDC00))

/-- The character that a backslash and one more character name. -/
def escaped? (c : Char) : Option Char :=
  if c = '"' then some '"'
  else if c = '\\' then some '\\'
  else if c = '/' then some '/'
  else if c = 'b' then some '\x08'
  else if c = 'f' then some '\x0c'
  else if c = 'n' then some '\n'
  else if c = 'r' then some '\r'
  else if c = 't' then some '\t'
  else none

/-- The characters of a quoted text so far. -/
structure Collected where
  /-- The characters, last first; `none` once half of a surrogate pair has stood alone. -/
  chars : Option (List Char)
  /-- The first half of a surrogate pair that waits for the second. -/
  high : Option Nat

namespace Collected

/-- Nothing read yet. -/
def empty : Collected := ⟨some [], none⟩

/-- Adds a character; half of a pair must not wait. -/
def push (t : Collected) (c : Char) : Collected :=
  match t.high with
  | none => ⟨t.chars.map (c :: ·), none⟩
  | some _ => ⟨none, none⟩

/-- Adds what four hexadecimal digits name: a character or half of a pair. -/
def pushUnit (t : Collected) (n : Nat) : Collected :=
  match t.high with
  | some high =>
    if isLowSurrogate n then ⟨t.chars.map (ofSurrogates high n :: ·), none⟩ else ⟨none, none⟩
  | none =>
    if isHighSurrogate n then ⟨t.chars, some n⟩
    else if isLowSurrogate n then ⟨none, none⟩
    else t.push (Char.ofNat n)

/-- The whole text, if every half of a pair has met the other. -/
def finish (t : Collected) : Option String :=
  match t.high with
  | none => t.chars.map fun cs => String.ofList cs.reverse
  | some _ => none

end Collected

/-- The rest of a quoted text up to its closing quote, and what follows. -/
def scanText (read : Collected) : List Char → Option (Option String × List Char)
  | [] => none
  | '"' :: rest => some (read.finish, rest)
  | '\\' :: 'u' :: a :: b :: c :: d :: rest =>
    match Text.hexNumber? [a, b, c, d] with
    | none => none
    | some n => scanText (read.pushUnit n) rest
  | '\\' :: c :: rest =>
    match escaped? c with
    | none => none
    | some ch => scanText (read.push ch) rest
  | c :: rest => if c.toNat < 32 then none else scanText (read.push c) rest

/-- Whether a text is `digit+`. -/
def isDigits (cs : List Char) : Bool :=
  !cs.isEmpty && Decimal.allDigits cs

/-- The part of a number after its whole part: a fraction, an exponent, both or nothing. -/
def isNumberTail (cs : List Char) : Bool :=
  let afterFraction :=
    match cs with
    | '.' :: rest =>
      if (rest.takeWhile Char.isDigit).isEmpty then none else some (rest.dropWhile Char.isDigit)
    | _ => some cs
  match afterFraction with
  | none => false
  | some [] => true
  | some (mark :: rest) =>
    (mark = 'e' || mark = 'E') &&
      match rest with
      | '+' :: digits => isDigits digits
      | '-' :: digits => isDigits digits
      | digits => isDigits digits

/-- A number without its sign: no zero before another digit. -/
def magnitude? (negative : Bool) (cs : List Char) : Option Json :=
  let whole := cs.takeWhile Char.isDigit
  let tail := cs.dropWhile Char.isDigit
  let leadingZero := whole.head? = some '0' && 1 < whole.length
  if whole.isEmpty || leadingZero || !isNumberTail tail then none
  else
    let n := Decimal.natOfDigits whole
    if tail.isEmpty && !(negative && n = 0) then
      some (integer (if negative then -(n : Int) else n))
    else some other

/-- The value of a word. -/
def word? (cs : List Char) : Option Json :=
  if cs = ['n', 'u', 'l', 'l'] then some null
  else if cs = ['t', 'r', 'u', 'e'] then some (bool true)
  else if cs = ['f', 'a', 'l', 's', 'e'] then some (bool false)
  else
    match cs with
    | '-' :: rest => magnitude? true rest
    | _ => magnitude? false cs

/-- A quoted text takes up at least its closing quote, so that cutting into tokens ends. -/
theorem length_scanText_lt {read : Collected} {cs : List Char} {s : Option String}
    {rest : List Char} (h : scanText read cs = some (s, rest)) : rest.length < cs.length := by
  fun_induction scanText read cs with
  | case4 _ _ _ _ _ _ _ _ ih =>
    have := ih h
    simp only [List.length_cons]
    omega
  | _ => grind

/-- The tokens of a text after those in `read`, last first. -/
def tokensFrom (read : List Token) (cs : List Char) : Option (List Token) :=
  match cs with
  | [] => some read.reverse
  | c :: rest =>
    if isBlank c then tokensFrom read rest
    else if c = '"' then
      match _h : scanText .empty rest with
      | none => none
      | some (s, rest') => tokensFrom (.text s :: read) rest'
    else
      match punctuation? c with
      | some t => tokensFrom (t :: read) rest
      | none =>
        match word? (c :: rest.takeWhile inWord) with
        | none => none
        | some value => tokensFrom (.word value :: read) (rest.dropWhile inWord)
termination_by cs.length
decreasing_by
  · simp
  · have := length_scanText_lt _h
    simp only [List.length_cons]
    omega
  · simp
  · have := (List.dropWhile_suffix inWord (l := rest)).length_le
    simp only [List.length_cons]
    omega

/-- The tokens of a text. -/
def tokens? (cs : List Char) : Option (List Token) := tokensFrom [] cs

end Json
end ImageCheck
