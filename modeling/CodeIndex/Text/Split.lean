/-!
Contract: texts cut at a separator and joined again.

Owns:
- `splitCharacters`, `split`: all parts between separators, empty ones included;
- `splitLast?`: the two sides of the last separator;
- `join`: parts with a separator between them;
- `startsWith`, `stripStart?`, `stripEnd?`: a given text at either end;
- `lines`: the lines of a text, without their ends.
-/

set_option autoImplicit false

namespace CodeIndex.Text

/-- The parts between separators. There is always one more than there are separators. -/
def splitCharacters (separator : Char) : List Char → List (List Char)
  | [] => [[]]
  | character :: rest =>
      if character = separator then
        [] :: splitCharacters separator rest
      else
        match splitCharacters separator rest with
        | [] => [[character]]
        | part :: parts => (character :: part) :: parts

/-- The parts of a text between separators. -/
def split (separator : Char) (text : String) : List String :=
  (splitCharacters separator text.toList).map String.ofList

/-- The characters before and after the last separator. -/
def splitLastCharacter? (separator : Char) : List Char → Option (List Char × List Char)
  | [] => none
  | character :: rest =>
      match splitLastCharacter? separator rest with
      | some (before, after) => some (character :: before, after)
      | none => if character = separator then some ([], rest) else none

/-- The text before and after the last separator. -/
def splitLast? (separator : Char) (text : String) : Option (String × String) :=
  match splitLastCharacter? separator text.toList with
  | some (before, after) => some (String.ofList before, String.ofList after)
  | none => none

/-- The parts with a separator between any two. -/
def join (separator : String) : List String → String
  | [] => ""
  | [part] => part
  | part :: parts => part ++ separator ++ join separator parts

/-- Whether a text begins with another. -/
def startsWith (start text : String) : Bool :=
  start.toList.isPrefixOf text.toList

/-- What follows the characters at the beginning. -/
def stripCharacters? : List Char → List Char → Option (List Char)
  | [], characters => some characters
  | _ :: _, [] => none
  | expected :: start, character :: rest =>
      if expected = character then stripCharacters? start rest else none

/-- What follows a given text at the beginning. -/
def stripStart? (start text : String) : Option String :=
  (stripCharacters? start.toList text.toList).map String.ofList

/-- What precedes a given text at the end. -/
def stripEnd? (stop text : String) : Option String :=
  (stripCharacters? stop.toList.reverse text.toList.reverse).map fun rest =>
    String.ofList rest.reverse

/-- A line without the carriage return that ends it. -/
private def dropCarriageReturn (line : List Char) : List Char :=
  match line.getLast? with
  | some '\x0d' => line.dropLast
  | _ => line

/-- The lines of a text. A line ends at a line feed, with a carriage return before it or not; after
the last line feed no empty line follows. -/
def lines (text : String) : List String :=
  let parts := splitCharacters '\n' text.toList
  let ended := parts.dropLast.map dropCarriageReturn
  let last :=
    match parts.getLast? with
    | some [] => []
    | some part => [part]
    | none => []
  (ended ++ last).map String.ofList

/-- Cuts a list of characters at a byte offset, if a character starts there or the list ends
there. -/
def splitAtByte? : Nat → List Char → Option (List Char × List Char)
  | 0, characters => some ([], characters)
  | _ + 1, [] => none
  | offset + 1, character :: rest =>
      if character.utf8Size ≤ offset + 1 then
        match splitAtByte? (offset + 1 - character.utf8Size) rest with
        | some (before, after) => some (character :: before, after)
        | none => none
      else
        none

end CodeIndex.Text
