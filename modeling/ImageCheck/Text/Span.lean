/-
# Spans and underlined excerpts

`SPEC_FULL` §4.5; `Span`, with `covering`, `point`, `len`, `is_empty` and `slice`, and
`format_error`.

A span is the stretch of a text between two positions. It can be cut out of a
text when both ends fall between characters, and shown as an excerpt:

```text
error: <message>
  --> column <first column>
   |
   | <text>
   |      ^^^
```

The carets stand below the characters of the span; an empty span gets one caret.
-/

import ImageCheck.Text.Position

namespace ImageCheck

/-- The stretch of a text from `start` up to `stop`. -/
structure Span where
  /-- The place before the first character. -/
  start : Position
  /-- The place after the last character. -/
  stop : Position
  deriving DecidableEq, Repr

/-- The characters of a text before and after byte offset `n`, if the offset falls between two
characters; `before` holds, last first, those passed already. -/
def Text.splitAtByte (before : List Char) : Nat → List Char → Option (List Char × List Char)
  | 0, cs => some (before.reverse, cs)
  | _ + 1, [] => none
  | n + 1, c :: cs =>
    if c.utf8Size ≤ n + 1 then Text.splitAtByte (c :: before) (n + 1 - c.utf8Size) cs else none

namespace Span

/-- The empty span at a position. -/
def point (p : Position) : Span := ⟨p, p⟩

/-- The span of a text that begins at `start`. -/
def covering (start : Position) (cs : List Char) : Span :=
  ⟨start, start.advanceBy cs⟩

/-- The bytes of a span. -/
def size (s : Span) : Nat := s.stop.offset - s.start.offset

/-- A span is empty when it ends where it starts. -/
def isEmpty (s : Span) : Bool := s.start.offset == s.stop.offset

/-- The part of a text that a span covers, if both its ends fall between characters of the text. -/
def slice (s : Span) (cs : List Char) : Option (List Char) :=
  if s.start.offset ≤ s.stop.offset then do
    let (_, after) ← Text.splitAtByte [] s.start.offset cs
    let (inside, _) ← Text.splitAtByte [] s.size after
    return inside
  else none

/-- A span is named by the columns of its ends. -/
def describe (s : Span) : String :=
  "columns " ++ toString s.start.column ++ "-" ++ toString s.stop.column

/-- The number of carets below a span: its characters, and one for an empty span. -/
def width (s : Span) : Nat := max 1 (s.stop.column - s.start.column)

/-- The line of carets below the characters of a span. -/
def underline (s : Span) : String :=
  "   | " ++ String.ofList (List.replicate (s.start.column - 1) ' ') ++
    String.ofList (List.replicate s.width '^')

/-- A message with the text it is about and carets below the span. -/
def excerpt (s : Span) (source message : String) : String :=
  "error: " ++ message ++ "\n" ++
    "  --> column " ++ toString s.start.column ++ "\n" ++
    "   |\n" ++
    "   | " ++ source ++ "\n" ++
    s.underline ++ "\n"

end Span
end ImageCheck
