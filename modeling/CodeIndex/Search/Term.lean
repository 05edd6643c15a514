import CodeIndex.Text.Alphabetic
import CodeIndex.Text.CaseMap
import CodeIndex.Text.Lowercase
import CodeIndex.Text.Numeric
import CodeIndex.Text.Uppercase

/-!
Contract: the terms of a text.

Owns:
- `words`: the longest rows of letters and digits;
- `splitCase`: the parts of a compound word;
- `terms`, `tokens`: the searchable parts of a text, with and without repetitions;
- `isStopWord`: terms that occur almost everywhere.
-/

set_option autoImplicit false

namespace CodeIndex.Search

/-- Whether a character belongs to a word. -/
def isWordCharacter (character : Char) : Bool :=
  Text.isAlphabetic character || Text.isNumeric character

/-- Adds a character to the first word. -/
def extendFirst (character : Char) : List (List Char) → List (List Char)
  | [] => [[character]]
  | word :: rest => (character :: word) :: rest

/-- The rows of word characters between the others, empty ones included. -/
def rows : List Char → List (List Char)
  | [] => [[]]
  | character :: rest =>
      if isWordCharacter character then extendFirst character (rows rest) else [] :: rows rest

/-- The words of a text. -/
def words (text : String) : List (List Char) :=
  (rows text.toList).filter fun word => !word.isEmpty

/-- Whether a part ends between two characters: before a capital that follows a small letter or a
digit, and before the last capital of several if a small letter follows it. -/
def isBoundary (before character : Char) (after : Option Char) : Bool :=
  Text.isUppercase character &&
    (Text.isLowercase before || Text.isNumeric before ||
      (Text.isUppercase before && (after.map Text.isLowercase).getD false))

/-- The parts of a word after its first character. -/
def splitCaseFrom (before : Char) : List Char → List (List Char)
  | [] => [[before]]
  | character :: rest =>
      let parts := splitCaseFrom character rest
      if isBoundary before character rest.head? then
        [before] :: parts
      else
        extendFirst before parts

/-- The parts of a compound word; capitals in a row stay together. -/
def splitCase : List Char → List (List Char)
  | [] => []
  | first :: rest => splitCaseFrom first rest

/-- The least number of characters of a term. -/
def shortestTerm : Nat := 2

/-- The terms of a text in order, in lower case, without single characters. -/
def terms (text : String) : List String :=
  let parts := ((words text).flatMap splitCase).map fun part => Text.toLower (String.ofList part)
  parts.filter fun term => shortestTerm ≤ term.length

/-- Items without the later of equal ones, given those seen so far. -/
def distinctFrom (seen : List String) : List String → List String
  | [] => []
  | item :: rest =>
      if seen.contains item then distinctFrom seen rest
      else item :: distinctFrom (item :: seen) rest

/-- The distinct terms of a text in order of first occurrence. -/
def tokens (text : String) : List String :=
  distinctFrom [] (terms text)

/-- Words of the language, of its library, of paths and of prose that match almost everything. -/
def stopWords : List String :=
  ["function", "const", "let", "var", "return", "class", "interface", "type", "enum",
    "export", "import", "default", "from", "as", "async", "await", "new", "this",
    "extends", "implements", "static", "public", "private", "protected", "readonly",
    "if", "else", "for", "while", "do", "switch", "case", "break", "continue", "try",
    "catch", "finally", "throw", "typeof", "instanceof", "in", "of", "void", "yield",
    "string", "number", "boolean", "any", "unknown", "never", "object", "null",
    "undefined", "true", "false", "promise", "array", "record", "map", "set",
    "method", "variable", "file", "src", "lib", "index", "ts", "tsx", "js", "jsx",
    "mjs", "cjs", "mts", "cts",
    "the", "and", "or", "to", "is", "an", "on", "at", "by", "with"]

def isStopWord (term : String) : Bool :=
  stopWords.contains term

end CodeIndex.Search
