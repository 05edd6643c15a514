import CodeIndex.Json.Basic
import CodeIndex.Source.Character

/-!
Contract: JSON values read from text.

Owns:
- `Json.scanString`: the code units of a string up to its closing quote;
- `Json.joinUnits?`: the text of code units, if surrogates come in pairs;
- `Json.read?`: the value that a whole text holds.

The reading is strict: no comments, no trailing commas, no other number forms, and nothing but
blanks around the value.
-/

set_option autoImplicit false

namespace CodeIndex.Json

open CodeIndex.Source (Character.backslash Character.doubleQuote)

/-- The text after blanks. -/
def skipBlanks (text : List Char) : List Char :=
  text.dropWhile fun character =>
    character == ' ' || character == '\n' || character == '\t' || character == '\x0d'

/-- The number of four hexadecimal digits. -/
def fourHexDigits? (first second third fourth : Char) : Option Nat :=
  Text.ofHexDigits? [first, second, third, fourth]

/-- The character that a short escape stands for. -/
def shortEscape? (letter : Char) : Option Nat :=
  match letter with
  | '\x22' => some 0x22
  | '\x5c' => some 0x5c
  | '/' => some 0x2f
  | 'b' => some 0x08
  | 'f' => some 0x0c
  | 'n' => some 0x0a
  | 'r' => some 0x0d
  | 't' => some 0x09
  | _ => none

/-- The code units of a string, after its opening quote, and what follows the closing one. An
escape may name any unit; other control characters are refused. -/
def scanString : List Char → Option (List Nat × List Char)
  | [] => none
  | '\x22' :: rest => some ([], rest)
  | '\x5c' :: 'u' :: first :: second :: third :: fourth :: rest =>
      match fourHexDigits? first second third fourth with
      | some unit => (scanString rest).map fun result => (unit :: result.1, result.2)
      | none => none
  | '\x5c' :: letter :: rest =>
      match shortEscape? letter with
      | some unit => (scanString rest).map fun result => (unit :: result.1, result.2)
      | none => none
  | character :: rest =>
      if character.toNat < 0x20 then
        none
      else
        (scanString rest).map fun result => (character.toNat :: result.1, result.2)

/-- The characters of code units. A high surrogate must be followed by a low one, and a low one
must follow a high one. -/
def joinUnits? : List Nat → Option (List Char)
  | [] => some []
  | unit :: rest =>
      if 0xd800 ≤ unit ∧ unit < 0xdc00 then
        match rest with
        | low :: others =>
            if 0xdc00 ≤ low ∧ low < 0xe000 then
              (joinUnits? others).map fun characters =>
                Char.ofNat (0x10000 + (unit - 0xd800) * 0x400 + (low - 0xdc00)) :: characters
            else
              none
        | [] => none
      else if 0xdc00 ≤ unit ∧ unit < 0xe000 then
        none
      else
        (joinUnits? rest).map fun characters => Char.ofNat unit :: characters

/-- The text of code units, if they have one. -/
def unitsText? (units : List Nat) : Option String :=
  (joinUnits? units).map String.ofList

/-- A row of decimal digits and what follows. -/
def scanDigits (text : List Char) : List Char × List Char :=
  (text.takeWhile Source.Character.isDigit, text.dropWhile Source.Character.isDigit)

/-- A point with digits after it, if there is a point. -/
def scanFraction (text : List Char) : Option (List Char × List Char) :=
  match text with
  | '.' :: rest =>
      match scanDigits rest with
      | ([], _) => none
      | (fraction, after) => some ('.' :: fraction, after)
  | _ => some ([], text)

/-- A sign and what follows, if there is a sign. -/
private def scanSign (text : List Char) : List Char × List Char :=
  match text with
  | '+' :: rest => (['+'], rest)
  | '-' :: rest => (['-'], rest)
  | _ => ([], text)

/-- An exponent, if there is a letter for one. -/
def scanExponent (text : List Char) : Option (List Char × List Char) :=
  match text with
  | letter :: rest =>
      if letter == 'e' || letter == 'E' then
        let (sign, afterSign) := scanSign rest
        match scanDigits afterSign with
        | ([], _) => none
        | (exponent, after) => some (letter :: sign ++ exponent, after)
      else
        some ([], text)
  | [] => some ([], [])

/-- The digits of a whole part: a single zero, or digits that do not start with one. -/
def scanWhole (text : List Char) : Option (List Char × List Char) :=
  match scanDigits text with
  | ([], _) => none
  | ('0' :: _ :: _, _) => none
  | (whole, after) => some (whole, after)

/-- A number without its minus sign. -/
def scanMagnitude (text : List Char) : Option (List Char × List Char) := do
  let (whole, afterWhole) ← scanWhole text
  let (fraction, afterFraction) ← scanFraction afterWhole
  let (exponent, after) ← scanExponent afterFraction
  return (whole ++ fraction ++ exponent, after)

/-- A number. -/
def scanNumber (text : List Char) : Option (List Char × List Char) :=
  match text with
  | '-' :: rest => (scanMagnitude rest).map fun result => ('-' :: result.1, result.2)
  | _ => scanMagnitude text

/-- A word or a number. -/
def readScalar? (text : List Char) : Option (Json × List Char) :=
  match text with
  | 'n' :: 'u' :: 'l' :: 'l' :: rest => some (.null, rest)
  | 't' :: 'r' :: 'u' :: 'e' :: rest => some (.bool true, rest)
  | 'f' :: 'a' :: 'l' :: 's' :: 'e' :: rest => some (.bool false, rest)
  | _ => (scanNumber text).map fun result => (.number (String.ofList result.1), result.2)

mutual

/-- A value, after blanks. The first argument bounds the work. -/
def readValue? : Nat → List Char → Option (Json × List Char)
  | 0, _ => none
  | fuel + 1, text =>
      match skipBlanks text with
      | '[' :: rest =>
          match skipBlanks rest with
          | ']' :: after => some (.array [], after)
          | _ => (readItems? fuel rest).map fun result => (.array result.1, result.2)
      | '\x7b' :: rest =>
          match skipBlanks rest with
          | '\x7d' :: after => some (.object [], after)
          | _ => (readMembers? fuel rest).map fun result => (.object result.1, result.2)
      | '\x22' :: rest =>
          (scanString rest).map fun result => (.string (unitsText? result.1), result.2)
      | other => readScalar? other

/-- Values up to the end of an array. -/
def readItems? : Nat → List Char → Option (List Json × List Char)
  | 0, _ => none
  | fuel + 1, text =>
      match readValue? fuel text with
      | some (item, rest) =>
          match skipBlanks rest with
          | ',' :: after =>
              (readItems? fuel after).map fun result => (item :: result.1, result.2)
          | ']' :: after => some ([item], after)
          | _ => none
      | none => none

/-- Members up to the end of an object. -/
def readMembers? : Nat → List Char → Option (List (Option String × Json) × List Char)
  | 0, _ => none
  | fuel + 1, text =>
      match readMember? fuel text with
      | some (member, rest) =>
          match skipBlanks rest with
          | ',' :: after =>
              (readMembers? fuel after).map fun result => (member :: result.1, result.2)
          | '\x7d' :: after => some ([member], after)
          | _ => none
      | none => none

/-- A name, a colon and a value. -/
def readMember? : Nat → List Char → Option ((Option String × Json) × List Char)
  | 0, _ => none
  | fuel + 1, text =>
      match skipBlanks text with
      | '\x22' :: rest =>
          match scanString rest with
          | some (units, afterName) =>
              match skipBlanks afterName with
              | ':' :: afterColon =>
                  (readValue? fuel afterColon).map fun result =>
                    ((unitsText? units, result.1), result.2)
              | _ => none
          | none => none
      | _ => none

end

/-- The value that a text holds, with nothing but blanks around it. Every step of the reading
takes a character or leads to one that does, so the bound is never met. -/
def read? (text : String) : Option Json :=
  let characters := text.toList
  match readValue? (3 * characters.length + 3) characters with
  | some (value, rest) => if (skipBlanks rest).isEmpty then some value else none
  | none => none

end CodeIndex.Json
