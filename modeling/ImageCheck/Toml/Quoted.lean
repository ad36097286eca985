/-
# Quoted texts of TOML

`SPEC_FULL` §8a, Configuration; the texts in the documents that `from_toml_str` reads.

Four forms of text: between double quotes, with escapes, or between single
quotes, as it is; each on one line or, between three quotes, over several. In a
text over several lines a line end is a line feed, one right after the opening
quotes is dropped, and a backslash at the end of a line drops the line end and
all blanks after it.

Each reader returns the text and what follows its closing quotes.
-/

import ImageCheck.Text.Hex

namespace ImageCheck
namespace Toml

/-- A space or a tab. -/
def isSpace (c : Char) : Bool := c = ' ' || c = '\t'

/-- A character that may stand in a comment or a text: no control character but the tab. -/
def isPrintable (c : Char) : Bool :=
  c = '\t' || (0x20 ≤ c.toNat && c.toNat != 0x7F)

/-- The character that a backslash and one more character name. -/
def escaped? (c : Char) : Option Char :=
  if c = 'b' then some '\x08'
  else if c = 't' then some '\t'
  else if c = 'n' then some '\n'
  else if c = 'f' then some '\x0c'
  else if c = 'r' then some '\r'
  else if c = '"' then some '"'
  else if c = '\\' then some '\\'
  else none

/-- The character with a number, if there is one. -/
def charOf? (n : Nat) : Option Char :=
  if n.isValidChar then some (Char.ofNat n) else none

/-- The character that hexadecimal digits name. -/
def charOfHex? (cs : List Char) : Option Char :=
  (Text.hexNumber? cs).bind charOf?

/-- The rest of a text in double quotes. `read` holds the characters so far, last first. -/
def basicText (read : List Char) : List Char → Option (List Char × List Char)
  | [] => none
  | '"' :: rest => some (read.reverse, rest)
  | '\\' :: 'u' :: a :: b :: c :: d :: rest =>
    match charOfHex? [a, b, c, d] with
    | some ch => basicText (ch :: read) rest
    | none => none
  | '\\' :: 'U' :: a :: b :: c :: d :: e :: f :: g :: h :: rest =>
    match charOfHex? [a, b, c, d, e, f, g, h] with
    | some ch => basicText (ch :: read) rest
    | none => none
  | '\\' :: c :: rest =>
    match escaped? c with
    | some ch => basicText (ch :: read) rest
    | none => none
  | c :: rest => if isPrintable c then basicText (c :: read) rest else none

/-- Whether a line ends after spaces. -/
def atLineEnd (cs : List Char) : Bool :=
  match cs.dropWhile isSpace with
  | '\n' :: _ => true
  | '\r' :: '\n' :: _ => true
  | _ => false

/-- The rest of a text in three double quotes; `skipping` after a backslash at the end of a line. -/
def basicLines (skipping : Bool) (read : List Char) : List Char → Option (List Char × List Char)
  | [] => none
  | '"' :: '"' :: '"' :: '"' :: '"' :: rest => some (('"' :: '"' :: read).reverse, rest)
  | '"' :: '"' :: '"' :: '"' :: rest => some (('"' :: read).reverse, rest)
  | '"' :: '"' :: '"' :: rest => some (read.reverse, rest)
  | '\r' :: '\n' :: rest =>
    if skipping then basicLines true read rest else basicLines false ('\n' :: read) rest
  | '\n' :: rest =>
    if skipping then basicLines true read rest else basicLines false ('\n' :: read) rest
  | '\\' :: 'u' :: a :: b :: c :: d :: rest =>
    match charOfHex? [a, b, c, d] with
    | some ch => basicLines false (ch :: read) rest
    | none => none
  | '\\' :: 'U' :: a :: b :: c :: d :: e :: f :: g :: h :: rest =>
    match charOfHex? [a, b, c, d, e, f, g, h] with
    | some ch => basicLines false (ch :: read) rest
    | none => none
  | '\\' :: c :: rest =>
    if atLineEnd (c :: rest) then basicLines true read rest
    else
      match escaped? c with
      | some ch => basicLines false (ch :: read) rest
      | none => none
  | c :: rest =>
    if skipping && isSpace c then basicLines true read rest
    else if isPrintable c then basicLines false (c :: read) rest
    else none

/-- The rest of a text in single quotes. -/
def literalText (read : List Char) : List Char → Option (List Char × List Char)
  | [] => none
  | '\'' :: rest => some (read.reverse, rest)
  | c :: rest => if isPrintable c then literalText (c :: read) rest else none

/-- The rest of a text in three single quotes. -/
def literalLines (read : List Char) : List Char → Option (List Char × List Char)
  | [] => none
  | '\'' :: '\'' :: '\'' :: '\'' :: '\'' :: rest => some (('\'' :: '\'' :: read).reverse, rest)
  | '\'' :: '\'' :: '\'' :: '\'' :: rest => some (('\'' :: read).reverse, rest)
  | '\'' :: '\'' :: '\'' :: rest => some (read.reverse, rest)
  | '\r' :: '\n' :: rest => literalLines ('\n' :: read) rest
  | '\n' :: rest => literalLines ('\n' :: read) rest
  | c :: rest => if isPrintable c then literalLines (c :: read) rest else none

/-- A text without the line end that it may begin with. -/
def dropLineEnd : List Char → List Char
  | '\n' :: rest => rest
  | '\r' :: '\n' :: rest => rest
  | cs => cs

/-- A quoted text of any form. -/
def quotedText? : List Char → Option (List Char × List Char)
  | '"' :: '"' :: '"' :: rest => basicLines false [] (dropLineEnd rest)
  | '"' :: rest => basicText [] rest
  | '\'' :: '\'' :: '\'' :: rest => literalLines [] (dropLineEnd rest)
  | '\'' :: rest => literalText [] rest
  | _ => none

end Toml
end ImageCheck
