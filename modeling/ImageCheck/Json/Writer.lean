/-
# Writing JSON

`SPEC_FULL` §8a, Serialization; the text of `format_json` (compact) and of `--json`
(indented).

Two layouts: compact, without any blank, and indented, with two spaces a level
and each item on a line of its own. Inside a text the quote, the backslash and
every character below U+0020 are escaped; all others stand for themselves. So a
compact text is a single line.

* `Json.compact`, `Json.indented`: the two layouts.
-/

import ImageCheck.Json.Basic
import ImageCheck.Number.Decimal

namespace ImageCheck
namespace Json

/-- The digit of a number below 16, in lower case. -/
def hexDigit (n : Nat) : Char := Nat.digitChar n

/-- The character as it stands inside a quoted text. -/
def escapeChar (c : Char) : List Char :=
  if c = '"' then ['\\', '"']
  else if c = '\\' then ['\\', '\\']
  else if c = '\x08' then ['\\', 'b']
  else if c = '\x0c' then ['\\', 'f']
  else if c = '\n' then ['\\', 'n']
  else if c = '\r' then ['\\', 'r']
  else if c = '\t' then ['\\', 't']
  else if c.toNat < 32 then
    ['\\', 'u', '0', '0', hexDigit (c.toNat / 16), hexDigit (c.toNat % 16)]
  else [c]

/-- A text in quotes. -/
def quote (s : String) : List Char :=
  '"' :: s.toList.flatMap escapeChar ++ ['"']

/-- A whole number. -/
def integerText : Int → List Char
  | .ofNat n => Decimal.digitsOf n
  | .negSucc n => '-' :: Decimal.digitsOf (n + 1)

mutual

/-- The value without any blank. -/
def compact : Json → List Char
  | null => ['n', 'u', 'l', 'l']
  | bool true => ['t', 'r', 'u', 'e']
  | bool false => ['f', 'a', 'l', 's', 'e']
  | integer n => integerText n
  | string s => quote s
  | array items => '[' :: compactItems items ++ [']']
  | object fields => '\x7b' :: compactFields fields ++ ['\x7d']
  | other => ['n', 'u', 'l', 'l']

/-- Items with commas between them. -/
def compactItems : List Json → List Char
  | [] => []
  | [item] => compact item
  | item :: next :: rest => compact item ++ ',' :: compactItems (next :: rest)

/-- Fields with commas between them. -/
def compactFields : List (String × Json) → List Char
  | [] => []
  | [(name, value)] => quote name ++ ':' :: compact value
  | (name, value) :: next :: rest =>
    quote name ++ ':' :: compact value ++ ',' :: compactFields (next :: rest)

end

/-- The start of a line at a depth of nesting. -/
def newLine (depth : Nat) : List Char :=
  '\n' :: List.replicate (2 * depth) ' '

mutual

/-- The value over several lines, its first line at a depth of nesting. -/
def indentedAt (depth : Nat) : Json → List Char
  | array [] => ['[', ']']
  | array (item :: rest) =>
    '[' :: newLine (depth + 1) ++ indentedItems (depth + 1) (item :: rest) ++ newLine depth ++ [']']
  | object [] => ['\x7b', '\x7d']
  | object (field :: rest) =>
    '\x7b' :: newLine (depth + 1) ++ indentedFields (depth + 1) (field :: rest) ++
      newLine depth ++ ['\x7d']
  | value => compact value

/-- Items on lines of their own. -/
def indentedItems (depth : Nat) : List Json → List Char
  | [] => []
  | [item] => indentedAt depth item
  | item :: next :: rest =>
    indentedAt depth item ++ ',' :: newLine depth ++ indentedItems depth (next :: rest)

/-- Fields on lines of their own. -/
def indentedFields (depth : Nat) : List (String × Json) → List Char
  | [] => []
  | [(name, value)] => quote name ++ ':' :: ' ' :: indentedAt depth value
  | (name, value) :: next :: rest =>
    quote name ++ ':' :: ' ' :: indentedAt depth value ++ ',' :: newLine depth ++
      indentedFields depth (next :: rest)

end

/-- The value over several lines. -/
def indented (value : Json) : List Char := indentedAt 0 value

end Json
end ImageCheck
