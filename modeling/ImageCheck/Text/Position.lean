/-
# Positions in a text

`SPEC_FULL` §4.5; `Position`, with `advance` and `advance_str`.

A position counts twice: the bytes of the UTF-8 form that precede it, from `0`,
and the characters that precede it, from column `1`. A cursor is a position
together with the characters that follow it; reading moves the cursor and never
looks back.

* `Position.advance`, `Position.advanceBy`: the position after a character, after a text;
* `Cursor.skipWhile`: the cursor after the longest run of a class of characters.
-/

import ImageCheck.Text.Blank

namespace ImageCheck

/-- The bytes that a text takes in UTF-8. -/
def Text.bytes (cs : List Char) : Nat :=
  cs.foldr (fun c n => c.utf8Size + n) 0

/-- A place between two characters of a text. -/
structure Position where
  /-- The bytes before the place. -/
  offset : Nat
  /-- One more than the number of characters before the place. -/
  column : Nat
  deriving DecidableEq, Repr

namespace Position

/-- The place before the first character. -/
def start : Position := ⟨0, 1⟩

/-- The place after one more character. -/
def advance (p : Position) (c : Char) : Position :=
  ⟨p.offset + c.utf8Size, p.column + 1⟩

/-- The place after the characters of a text. -/
def advanceBy (p : Position) (cs : List Char) : Position :=
  cs.foldl advance p

/-- A position is named by its column. -/
def describe (p : Position) : String :=
  "column " ++ toString p.column

/-- Walking over two texts is walking over the first and then over the second. -/
theorem advanceBy_append (p : Position) (cs ds : List Char) :
    p.advanceBy (cs ++ ds) = (p.advanceBy cs).advanceBy ds := by
  simp [advanceBy]

/-- Walking over a text adds its bytes to the offset and its length to the column. -/
theorem advanceBy_eq (p : Position) (cs : List Char) :
    p.advanceBy cs = ⟨p.offset + Text.bytes cs, p.column + cs.length⟩ := by
  induction cs generalizing p with
  | nil => simp [advanceBy, Text.bytes]
  | cons c cs ih =>
    have h := ih (p.advance c)
    simp only [advanceBy, List.foldl_cons] at h ⊢
    rw [h]
    simp [advance, Text.bytes, Nat.add_assoc, Nat.add_comm 1]

end Position

/-- A position in a text and the characters from there on. -/
structure Cursor where
  /-- Where the cursor stands. -/
  position : Position
  /-- The characters not read yet. -/
  rest : List Char
  deriving DecidableEq

namespace Cursor

/-- The cursor before the first character of a text. -/
def ofList (cs : List Char) : Cursor := ⟨Position.start, cs⟩

/-- The cursor after the longest run of characters in the class `p`. -/
def skipWhile (p : Char → Bool) (c : Cursor) : Cursor :=
  ⟨c.position.advanceBy (c.rest.takeWhile p), c.rest.dropWhile p⟩

/-- The cursor after all blanks that follow it. -/
def skipBlanks (c : Cursor) : Cursor :=
  c.skipWhile Text.isBlank

/-- Whether anything but blanks is left. -/
def hasMore (c : Cursor) : Bool :=
  c.rest.any fun ch => !Text.isBlank ch

/-- Skipping a class of characters leaves the text from the first one outside it. -/
theorem rest_skipWhile (p : Char → Bool) (c : Cursor) :
    (c.skipWhile p).rest = c.rest.dropWhile p := rfl

/-- Skipping leaves no more than before. -/
theorem length_skipWhile_le (p : Char → Bool) (c : Cursor) :
    (c.skipWhile p).rest.length ≤ c.rest.length :=
  (List.dropWhile_suffix p).length_le

/-- A cursor that skips something has less to read than before. -/
theorem length_skipWhile_lt {p : Char → Bool} {c : Cursor} (h : c.rest.takeWhile p ≠ []) :
    (c.skipWhile p).rest.length < c.rest.length := by
  have hsplit := congrArg List.length (List.takeWhile_append_dropWhile (p := p) (l := c.rest))
  have hpos := List.length_pos_iff.2 h
  simp only [List.length_append] at hsplit
  simp only [rest_skipWhile]
  omega

/-- Skipping blanks leaves no more than before. -/
theorem length_skipBlanks_le (c : Cursor) : c.skipBlanks.rest.length ≤ c.rest.length :=
  length_skipWhile_le _ c

end Cursor
end ImageCheck
