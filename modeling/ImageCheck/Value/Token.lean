/-
# Tokens of a value

`SPEC_FULL` §4.5; `CharReader`, with `expect_word`, `expect_number`, `expect_end`,
`has_more` and `read_token`, `LexerError`, `expect_numbers`, and the limit
`MAX_TOKEN_LENGTH`.

A value is read as tokens: maximal runs of characters that are not blank. A read
moves the cursor past its token whether or not the token is the one expected, so
the reads after a failure go on with the next token.

* `Cursor.word`, `Cursor.number`, `Cursor.finish`: the three reads;
* `readNumbers`: exactly so many numbers and nothing else.
-/

import ImageCheck.Code
import ImageCheck.Number.Binary64
import ImageCheck.Text.Span

namespace ImageCheck

/-- The most characters a token may have. -/
def maxTokenLength : Nat := 4096

/-- Why the tokens of a value are not the ones expected. -/
inductive ReadError where
  /-- The value ended where a word should stand. -/
  | missingWord (position : Position)
  /-- The value ended where a number should stand. -/
  | missingNumber (position : Position)
  /-- A token is no decimal literal, or too large for a finite number. -/
  | invalidNumber (text : String) (position : Position)
  /-- A token has more than `maxTokenLength` characters. -/
  | tokenTooLong (length : Nat) (position : Position)
  /-- Something follows the last token expected. -/
  | trailingContent (text : String) (position : Position)
  deriving DecidableEq, Repr

namespace ReadError

/-- The wording of a failure. -/
def message : ReadError → String
  | missingWord position =>
    "Expected a word at " ++ position.describe ++ " but reached end of input"
  | missingNumber position =>
    "Expected a number at " ++ position.describe ++ " but reached end of input"
  | invalidNumber text position =>
    "Invalid number format: '" ++ text ++ "' at " ++ position.describe
  | tokenTooLong length position =>
    "Token too long: " ++ toString length ++ " characters (max " ++ toString maxTokenLength ++
      ") at " ++ position.describe
  | trailingContent text position =>
    "Unexpected trailing content: '" ++ text ++ "' at " ++ position.describe

/-- The code of a failure. -/
def code : ReadError → Code
  | missingWord _ => .unexpectedEnd
  | missingNumber _ => .unexpectedEnd
  | invalidNumber _ _ => .invalidNumber
  | tokenTooLong _ _ => .tokenTooLong
  | trailingContent _ _ => .trailingContent

/-- The part of the value that a failure is about. The text of a token that is too long is not
kept, so its span has columns but no bytes. -/
def span : ReadError → Span
  | missingWord position => .point position
  | missingNumber position => .point position
  | invalidNumber text position => .covering position text.toList
  | tokenTooLong length position =>
    ⟨position, ⟨position.offset, position.column + length⟩⟩
  | trailingContent text position => .covering position text.toList

end ReadError

/-- A run of characters that are not blank, and where it begins. It is empty only at the end of
the text. -/
structure Token where
  /-- Where the token begins. -/
  start : Position
  /-- The characters of the token. -/
  text : List Char
  deriving DecidableEq

/-- The text of a token, unless it is missing or too long. -/
def Token.check (t : Token) (missing : Position → ReadError) : Except ReadError (List Char) :=
  if t.text = [] then .error (missing t.start)
  else if maxTokenLength < t.text.length then .error (.tokenTooLong t.text.length t.start)
  else .ok t.text

/-- The number that a token stands for. -/
def Token.number (t : Token) : Except ReadError Binary64 :=
  match t.check .missingNumber with
  | .error e => .error e
  | .ok text =>
    let invalid := .error (.invalidNumber (String.ofList text) t.start)
    if Decimal.isLiteral text then
      match Binary64.parse? text with
      | some x => if x.isFinite then .ok x else invalid
      | none => invalid
    else invalid

namespace Cursor

/-- A character of a token. -/
def inToken (ch : Char) : Bool := !Text.isBlank ch

/-- The next token. -/
def token (c : Cursor) : Token :=
  let c := c.skipBlanks
  ⟨c.position, c.rest.takeWhile inToken⟩

/-- The cursor after the next token. -/
def afterToken (c : Cursor) : Cursor :=
  c.skipBlanks.skipWhile inToken

/-- Reads a word: any token. -/
def word (c : Cursor) : Except ReadError String × Cursor :=
  ((c.token.check .missingWord).map String.ofList, c.afterToken)

/-- Reads a number. -/
def number (c : Cursor) : Except ReadError Binary64 × Cursor :=
  (c.token.number, c.afterToken)

/-- Accepts that only blanks are left. -/
def finish (c : Cursor) : Except ReadError Unit × Cursor :=
  let c := c.skipBlanks
  let verdict :=
    if c.rest = [] then .ok ()
    else .error (.trailingContent (String.ofList (Text.trimEnd c.rest)) c.position)
  (verdict, c)

/-- Reads `n` numbers, one after another. -/
def numbers : (n : Nat) → Cursor → Except ReadError (Vector Binary64 n × Cursor)
  | 0, c => .ok (#v[], c)
  | n + 1, c =>
    match numbers n c with
    | .error e => .error e
    | .ok (xs, c) =>
      match c.number with
      | (.error e, _) => .error e
      | (.ok x, c) => .ok (xs.push x, c)

end Cursor

/-- The numbers of a text that holds exactly `n` of them. -/
def readNumbers (n : Nat) (text : String) : Except ReadError (Vector Binary64 n) :=
  match (Cursor.ofList text.toList).numbers n with
  | .error e => .error e
  | .ok (xs, c) =>
    match c.finish.1 with
    | .error e => .error e
    | .ok () => .ok xs

end ImageCheck
