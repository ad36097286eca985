/-
# Documents of TOML

`SPEC_FULL` §8a, Configuration; the documents that `from_toml_str` reads.

A document is a sequence of lines: headers of tables, keys with values, comments.
Keys and headers act on the table that they name as soon as they are read, so a
document either has one meaning as a table or none.

Arrays and inline tables may be nested less than `nestingBound` deep, and a
dotted key has fewer names than that.

* `Toml.parse?`: the table of a document.
-/

import ImageCheck.Toml.Quoted
import ImageCheck.Toml.Scalar

namespace ImageCheck
namespace Toml

/-- What a reader takes from the start of a text, and what follows. -/
abbrev Parser (α : Type) := List Char → Option (α × List Char)

/-- Bound on the nesting of values and on the names of a key. -/
def nestingBound : Nat := 80

/-- The text after blanks, line ends and comments. -/
def skipLines (inComment : Bool) : List Char → Option (List Char)
  | [] => some []
  | '\n' :: rest => skipLines false rest
  | '\r' :: '\n' :: rest => skipLines false rest
  | c :: rest =>
    if inComment then if isPrintable c then skipLines true rest else none
    else if isSpace c then skipLines false rest
    else if c = '#' then skipLines true rest
    else some (c :: rest)

/-- The text after the end of a line, which only spaces and a comment may precede. -/
def lineEnd? (cs : List Char) : Option (List Char) :=
  let cs := cs.dropWhile isSpace
  let cs :=
    match cs with
    | '#' :: rest => rest.dropWhile isPrintable
    | _ => cs
  match cs with
  | [] => some []
  | '\n' :: rest => some rest
  | '\r' :: '\n' :: rest => some rest
  | _ => none

/-- A character of a key without quotes. -/
def isBare (c : Char) : Bool := c.isAlphanum || c = '_' || c = '-'

/-- One name of a key. -/
def simpleKey : Parser String := fun cs =>
  match cs with
  | '"' :: rest => (basicText [] rest).map fun r => (String.ofList r.1, r.2)
  | '\'' :: rest => (literalText [] rest).map fun r => (String.ofList r.1, r.2)
  | _ =>
    let name := cs.takeWhile isBare
    if name.isEmpty then none else some (String.ofList name, cs.dropWhile isBare)

/-- The names of a key, with dots and spaces between them; `fuel` bounds their number. -/
def keyNames : Nat → List String → Parser (List String)
  | 0, _, _ => none
  | fuel + 1, read, cs => do
    let (name, cs) ← simpleKey (cs.dropWhile isSpace)
    match cs.dropWhile isSpace with
    | '.' :: rest => keyNames fuel (name :: read) rest
    | rest => some ((name :: read).reverse, rest)

/-- A key: the names before the last one, and the last one. -/
def key : Parser (List String × String) := fun cs => do
  let (names, cs) ← keyNames (nestingBound - 1) [] cs
  let last ← names.getLast?
  return ((names.dropLast, last), cs)

/-- A character of a value without quotes. -/
def inPlain (c : Char) : Bool :=
  c.isAlphanum || c = '_' || c = '+' || c = '-' || c = '.' || c = ':'

/-- A value without quotes. A date and a time of day may be parted by a space. -/
def plainValue : Parser Item := fun cs =>
  let word := cs.takeWhile inPlain
  let rest := cs.dropWhile inPlain
  match date? word, rest with
  | some [], ' ' :: d :: more =>
    if d.isDigit then
      let time := (d :: more).takeWhile inPlain
      (scalar? (word ++ ' ' :: time)).map (·, (d :: more).dropWhile inPlain)
    else some (.scalar, rest)
  | _, _ => (scalar? word).map (·, rest)

/-- A value that holds no other values. -/
def leaf : Parser Item := fun cs =>
  match cs with
  | '"' :: _ => (quotedText? cs).map fun r => (.string (String.ofList r.1), r.2)
  | '\'' :: _ => (quotedText? cs).map fun r => (.string (String.ofList r.1), r.2)
  | _ => plainValue cs

/-- The items of an array up to its closing bracket; `fuel` bounds their number. -/
def arrayItems (item : Parser Item) : Nat → List Item → Parser (List Item)
  | 0, _, _ => none
  | fuel + 1, read, cs => do
    let cs ← skipLines false cs
    match cs with
    | ']' :: rest => some (read.reverse, rest)
    | _ =>
      let (value, cs) ← item cs
      let cs ← skipLines false cs
      match cs with
      | ',' :: rest => arrayItems item fuel (value :: read) rest
      | ']' :: rest => some ((value :: read).reverse, rest)
      | _ => none

/-- A key, an equals sign and a value. -/
def keyValue (item : Parser Item) : Parser ((List String × String) × Item) := fun cs => do
  let (k, cs) ← key cs
  let cs ← after? '=' cs
  let (value, cs) ← item (cs.dropWhile isSpace)
  return ((k, value), cs)

/-- The fields of an inline table up to its closing brace; `fuel` bounds their number. -/
def inlineFields (item : Parser Item) : Nat → Fields → Parser Fields
  | 0, _, _ => none
  | fuel + 1, fields, cs => do
    let (((path, name), value), cs) ← keyValue item cs
    let fields ← assignIn path name value .header fields
    match cs.dropWhile isSpace with
    | ',' :: rest => inlineFields item fuel fields rest
    | '\x7d' :: rest => some (fields, rest)
    | _ => none

/-- An inline table after its opening brace. -/
def inlineTable (item : Parser Item) : Parser Fields := fun cs =>
  match cs.dropWhile isSpace with
  | '\x7d' :: rest => some ([], rest)
  | _ => inlineFields item (cs.length + 1) [] cs

/-- A value in which arrays and inline tables may be nested so deep. -/
def value : Nat → Parser Item
  | 0, cs => leaf cs
  | depth + 1, cs =>
    match cs with
    | '[' :: rest =>
      (arrayItems (value depth) (rest.length + 1) [] rest).map fun r => (.array r.1, r.2)
    | '\x7b' :: rest =>
      (inlineTable (value depth) rest).map fun r => (.table .inline r.1, r.2)
    | _ => leaf cs

/-- The table so far and the header in force. -/
structure Progress where
  /-- The whole table. -/
  root : Fields
  /-- The path of the last header. -/
  header : List String

/-- One header or key, and the end of its line. -/
def statement (p : Progress) (cs : List Char) : Option (Progress × List Char) :=
  match cs with
  | '[' :: '[' :: rest => do
    let ((path, name), cs) ← key rest
    let cs ← (after? ']' cs).bind (after? ']')
    let root ← openElement path name p.root
    let cs ← lineEnd? cs
    return (⟨root, path ++ [name]⟩, cs)
  | '[' :: rest => do
    let ((path, name), cs) ← key rest
    let cs ← after? ']' cs
    let root ← openTable path name p.root
    let cs ← lineEnd? cs
    return (⟨root, path ++ [name]⟩, cs)
  | _ => do
    let (((path, name), item), cs) ← keyValue (value (nestingBound - 1)) cs
    let root ← assign p.header path name item p.root
    let cs ← lineEnd? cs
    return (⟨root, p.header⟩, cs)

/-- The statements of a document; `fuel` bounds their number. -/
def statements : Nat → Progress → List Char → Option Fields
  | 0, _, _ => none
  | fuel + 1, p, cs => do
    match ← skipLines false cs with
    | [] => some p.root
    | cs =>
      let (p, cs) ← statement p cs
      statements fuel p cs

/-- A text without the byte-order mark that it may begin with. -/
def dropByteOrderMark : List Char → List Char
  | '\uFEFF' :: rest => rest
  | cs => cs

/-- The table of a document. -/
def parse? (text : String) : Option Fields :=
  let cs := dropByteOrderMark text.toList
  statements (cs.length + 1) ⟨[], []⟩ cs

end Toml
end ImageCheck
