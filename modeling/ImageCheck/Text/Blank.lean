/-
# Blank characters

`SPEC_FULL` §4.5: whitespace is that of Unicode.

A character is blank when Unicode gives it the property `White_Space`: 25 code
points in ten ranges. Clause text, values and clause files all agree on this one
class, so every module that skips or trims uses the functions below.

* `isBlank`: the class;
* `trimStart`, `trimEnd`, `trim`: a text without its outer blanks.
-/

namespace ImageCheck
namespace Text

/-- The ranges of code points with the property `White_Space`, in increasing order. -/
def blankRanges : List (Nat × Nat) :=
  [(0x09, 0x0D), (0x20, 0x20), (0x85, 0x85), (0xA0, 0xA0), (0x1680, 0x1680),
   (0x2000, 0x200A), (0x2028, 0x2029), (0x202F, 0x202F), (0x205F, 0x205F), (0x3000, 0x3000)]

/-- A character is blank when its code point lies in one of `blankRanges`. -/
def isBlank (c : Char) : Bool :=
  blankRanges.any fun range => range.1 ≤ c.toNat && c.toNat ≤ range.2

/-- The text from its first character that is not blank. -/
def trimStart (cs : List Char) : List Char :=
  cs.dropWhile isBlank

/-- The text up to its last character that is not blank. -/
def trimEnd (cs : List Char) : List Char :=
  (cs.reverse.dropWhile isBlank).reverse

/-- The text without its outer blanks. -/
def trim (cs : List Char) : List Char :=
  trimEnd (trimStart cs)

/-- The table holds 25 code points. -/
example : (blankRanges.map fun range => range.2 + 1 - range.1).sum = 25 := by decide

/-- The ranges are in increasing order and do not touch. -/
example : blankRanges.Pairwise fun a b => a.2 + 1 < b.1 := by decide

/-- The no-break space is blank, the zero-width space is not. -/
example : isBlank '\u00A0' = true ∧ isBlank '\u200B' = false := by decide

theorem isBlank_space : isBlank ' ' = true := by decide

theorem isBlank_comma : isBlank ',' = false := by decide

theorem isBlank_colon : isBlank ':' = false := by decide

theorem isBlank_quote : isBlank '"' = false := by decide

end Text
end ImageCheck
