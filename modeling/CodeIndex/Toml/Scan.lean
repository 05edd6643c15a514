import CodeIndex.Source.Character
import CodeIndex.Text.Digits

/-!
Contract: the characters of TOML documents.

Owns:
- `Toml.skipBlanks`, `Toml.skipComment`, `Toml.skipSpace`: what stands between values;
- `Toml.scanString?`: the four kinds of strings;
- `Toml.scanKey?`: the names of a dotted key.
-/

set_option autoImplicit false

namespace CodeIndex.Toml

/-! ## Between values -/

/-- The text after spaces and tabs. -/
def skipBlanks (text : List Char) : List Char :=
  text.dropWhile fun character => character == ' ' || character == '\t'

/-- The text after the end of a line, if there is one. -/
def newline? : List Char → Option (List Char)
  | '\n' :: rest => some rest
  | '\x0d' :: '\n' :: rest => some rest
  | _ => none

/-- Whether a character may stand on a line: a tab, or no control character. -/
def isPrintable (character : Char) : Bool :=
  character == '\t' || (0x20 ≤ character.toNat && character.toNat != 0x7f)

/-- The text after a comment, if there is one. -/
def skipComment (text : List Char) : List Char :=
  match text with
  | '#' :: rest => rest.dropWhile isPrintable
  | _ => text

/-- The text after blanks, comments and ends of lines. The first argument bounds the work. -/
def skipSpace : Nat → List Char → List Char
  | 0, text => text
  | steps + 1, text =>
      let trimmed := skipBlanks text
      match newline? (skipComment trimmed) with
      | some rest => skipSpace steps rest
      | none => skipComment trimmed

/-- The text after the rest of a line, if nothing but blanks and a comment is on it. -/
def endLine? (text : List Char) : Option (List Char) :=
  match skipComment (skipBlanks text) with
  | [] => some []
  | rest => newline? rest

/-! ## Strings -/

/-- The character with a code, if there is one. -/
def characterOfCode? (code : Nat) : Option Char :=
  if code < 0xd800 ∨ (0xe000 ≤ code ∧ code < 0x110000) then some (Char.ofNat code) else none

/-- The character that an escape stands for, after the backslash. -/
def escape? : List Char → Option (Char × List Char)
  | 'b' :: rest => some ('\x08', rest)
  | 't' :: rest => some ('\t', rest)
  | 'n' :: rest => some ('\n', rest)
  | 'f' :: rest => some ('\x0c', rest)
  | 'r' :: rest => some ('\x0d', rest)
  | '\x22' :: rest => some ('\x22', rest)
  | '\x5c' :: rest => some ('\x5c', rest)
  | 'u' :: rest => hexEscape? 4 rest
  | 'U' :: rest => hexEscape? 8 rest
  | _ => none
where
  /-- The character of so many hexadecimal digits. -/
  hexEscape? (count : Nat) (text : List Char) : Option (Char × List Char) :=
    if text.length < count then
      none
    else
      match (Text.ofHexDigits? (text.take count)).bind characterOfCode? with
      | some character => some (character, text.drop count)
      | none => none

/-- A string on one line, after its opening quote. The first argument bounds the work. -/
def scanLine? (quote : Char) (escapes : Bool) : Nat → List Char → Option (List Char × List Char)
  | 0, _ => none
  | _ + 1, [] => none
  | steps + 1, character :: rest =>
      if character = quote then
        some ([], rest)
      else if escapes ∧ character = '\x5c' then
        match escape? rest with
        | some (escaped, after) =>
            (scanLine? quote escapes steps after).map fun result =>
              (escaped :: result.1, result.2)
        | none => none
      else if isPrintable character then
        (scanLine? quote escapes steps rest).map fun result => (character :: result.1, result.2)
      else
        none

/-- Whether a backslash at the end of a line joins it with what follows: the text after blanks
and ends of lines. -/
private def continuation? (text : List Char) : Option (List Char) :=
  match newline? (skipBlanks text) with
  | some rest =>
      some (rest.dropWhile fun character =>
        character == ' ' || character == '\t' || character == '\n' || character == '\x0d')
  | none => none

/-- A string on several lines, after its opening quotes. Up to two quotes may stand before the
three that close it. The first argument bounds the work. -/
def scanLines? (quote : Char) (escapes : Bool) : Nat → List Char → Option (List Char × List Char)
  | 0, _ => none
  | _ + 1, [] => none
  | steps + 1, character :: rest =>
      let more := fun (characters : List Char) (after : List Char) =>
        (scanLines? quote escapes steps after).map fun result =>
          (characters ++ result.1, result.2)
      if character = quote then
        let quotes := (character :: rest).takeWhile (· == quote)
        if 3 ≤ quotes.length then
          let extra := min (quotes.length - 3) 2
          some (List.replicate extra quote, (character :: rest).drop (3 + extra))
        else
          more [quote] rest
      else if escapes ∧ character = '\x5c' then
        match continuation? rest with
        | some after => more [] after
        | none =>
            match escape? rest with
            | some (escaped, after) => more [escaped] after
            | none => none
      else
        match newline? (character :: rest) with
        | some after => more ['\n'] after
        | none => if isPrintable character then more [character] rest else none

/-- A string of any kind. A line end right after three opening quotes is dropped. -/
def scanString? (text : List Char) : Option (String × List Char) :=
  let steps := text.length
  let scanned :=
    match text with
    | '\x22' :: '\x22' :: '\x22' :: rest =>
        scanLines? '\x22' true steps ((newline? rest).getD rest)
    | '\x22' :: rest => scanLine? '\x22' true steps rest
    | '\x27' :: '\x27' :: '\x27' :: rest =>
        scanLines? '\x27' false steps ((newline? rest).getD rest)
    | '\x27' :: rest => scanLine? '\x27' false steps rest
    | _ => none
  scanned.map fun result => (String.ofList result.1, result.2)

/-! ## Keys -/

/-- Whether a character may stand in a name without quotes. -/
def isBare (character : Char) : Bool :=
  Source.Character.isDigit character || character == '_' || character == '-' ||
    ('a' ≤ character && character ≤ 'z') || ('A' ≤ character && character ≤ 'Z')

/-- A name, with quotes on one line or without. -/
def scanName? (text : List Char) : Option (String × List Char) :=
  let steps := text.length
  match text with
  | '\x22' :: rest =>
      (scanLine? '\x22' true steps rest).map fun result => (String.ofList result.1, result.2)
  | '\x27' :: rest =>
      (scanLine? '\x27' false steps rest).map fun result => (String.ofList result.1, result.2)
  | _ =>
      match text.takeWhile isBare with
      | [] => none
      | name => some (String.ofList name, text.dropWhile isBare)

/-- The names of a key with dots between them. The first argument bounds their number. -/
def scanNames? : Nat → List Char → Option (List String × List Char)
  | 0, _ => none
  | steps + 1, text =>
      match scanName? (skipBlanks text) with
      | some (name, after) =>
          match skipBlanks after with
          | '.' :: rest =>
              (scanNames? steps rest).map fun result => (name :: result.1, result.2)
          | rest => some ([name], rest)
      | none => none

/-- How deep a document may go. -/
def maximalDepth : Nat := 79

/-- The names of a key, and the text after the blanks that follow it. -/
def scanKey? (text : List Char) : Option (List String × List Char) :=
  scanNames? maximalDepth text

end CodeIndex.Toml
