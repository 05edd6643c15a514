import CodeIndex.Json.Basic

/-!
Contract: JSON values as text.

Owns:
- `Json.quote`: a string with its escapes;
- `Json.compact`: a value without blanks;
- `Json.pretty`: a value with a line for each item, indented by two blanks a level.
-/

set_option autoImplicit false

namespace CodeIndex.Json

/-- The escape that stands for a control character. -/
def controlEscape (code : Nat) : List Char :=
  '\x5c' :: 'u' :: Text.padLeft 4 '0' (Text.hexDigits code)

/-- How a character stands in a string. -/
def quoteCharacter (character : Char) : List Char :=
  match character.toNat with
  | 0x22 => ['\x5c', '\x22']
  | 0x5c => ['\x5c', '\x5c']
  | 0x08 => ['\x5c', 'b']
  | 0x09 => ['\x5c', 't']
  | 0x0a => ['\x5c', 'n']
  | 0x0c => ['\x5c', 'f']
  | 0x0d => ['\x5c', 'r']
  | code => if code < 0x20 then controlEscape code else [character]

/-- A string between quotes. One without a text is written as a lone surrogate. -/
def quote (text : Option String) : List Char :=
  match text with
  | some characters =>
      '\x22' :: (characters.toList.flatMap quoteCharacter ++ ['\x22'])
  | none => '\x22' :: (controlEscape 0xd800 ++ ['\x22'])

/-- The word for a truth value. -/
def boolWord (value : Bool) : List Char :=
  if value then "true".toList else "false".toList

mutual

/-- A value without blanks. -/
def compactCharacters : Json → List Char
  | .null => "null".toList
  | .bool value => boolWord value
  | .number digits => digits.toList
  | .string text => quote text
  | .array items => '[' :: compactItems items
  | .object members => '\x7b' :: compactMembers members

/-- The items of an array with the bracket that closes it. -/
def compactItems : List Json → List Char
  | [] => [']']
  | item :: rest => compactCharacters item ++ compactMoreItems rest

/-- Further items of an array with the bracket that closes it. -/
def compactMoreItems : List Json → List Char
  | [] => [']']
  | item :: rest => ',' :: (compactCharacters item ++ compactMoreItems rest)

/-- The members of an object with the brace that closes it. -/
def compactMembers : List (Option String × Json) → List Char
  | [] => ['\x7d']
  | member :: rest => compactMember member ++ compactMoreMembers rest

/-- Further members of an object with the brace that closes it. -/
def compactMoreMembers : List (Option String × Json) → List Char
  | [] => ['\x7d']
  | member :: rest => ',' :: (compactMember member ++ compactMoreMembers rest)

/-- A name, a colon and a value. -/
def compactMember : Option String × Json → List Char
  | (name, value) => quote name ++ ':' :: compactCharacters value

end

/-- A value without blanks. -/
def compact (value : Json) : String :=
  String.ofList (compactCharacters value)

/-- A new line at a level. -/
private def newLine (level : Nat) : List Char :=
  '\n' :: List.replicate (2 * level) ' '

mutual

/-- A value at a level, with a line for each item. -/
def prettyCharacters (level : Nat) : Json → List Char
  | .array [] => ['[', ']']
  | .array (item :: rest) =>
      '[' :: newLine (level + 1) ++ prettyCharacters (level + 1) item ++ prettyItems level rest
  | .object [] => ['\x7b', '\x7d']
  | .object (member :: rest) =>
      '\x7b' :: newLine (level + 1) ++ prettyMember (level + 1) member ++
        prettyMembers level rest
  | .null => "null".toList
  | .bool value => boolWord value
  | .number digits => digits.toList
  | .string text => quote text

/-- Further items of an array at a level, with the bracket that closes it. -/
def prettyItems (level : Nat) : List Json → List Char
  | [] => newLine level ++ [']']
  | item :: rest =>
      ',' :: newLine (level + 1) ++ prettyCharacters (level + 1) item ++ prettyItems level rest

/-- Further members of an object at a level, with the brace that closes it. -/
def prettyMembers (level : Nat) : List (Option String × Json) → List Char
  | [] => newLine level ++ ['\x7d']
  | member :: rest =>
      ',' :: newLine (level + 1) ++ prettyMember (level + 1) member ++ prettyMembers level rest

/-- A name, a colon, a blank and a value. -/
def prettyMember (level : Nat) : Option String × Json → List Char
  | (name, value) => quote name ++ ':' :: ' ' :: prettyCharacters level value

end

/-- A value with a line for each item. -/
def pretty (value : Json) : String :=
  String.ofList (prettyCharacters 0 value)

end CodeIndex.Json
