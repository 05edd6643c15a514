import CodeIndex.Source.Character
import CodeIndex.Source.Span

/-!
Contract: the tokens of script source text.

Owns:
- `Gap`, `skipGap`: blanks and comments between tokens;
- `Token`, `Token.scan`: the token at a place, with what surrounds it;
- `scanPattern`: a pattern literal such as `/a+/g`, read where a value may stand.

Does not own: template text and element text, which the grammar reads from the
characters after a mark.

The marks `<` and `>` are always tokens of their own, so that a list of type
arguments closes one bracket at a time; the grammar joins them to operators.
-/

set_option autoImplicit false

namespace CodeIndex.Source

open Character

inductive TokenKind where
  /-- A name or a keyword. -/
  | word
  /-- A member name with a leading hash. -/
  | privateName
  | number
  | string
  | mark
  | endOfText
  /-- A character or an unclosed string that starts no token. -/
  | unknown
  deriving DecidableEq, Repr, Inhabited

/-- What stands between two tokens. -/
structure Gap where
  /-- Whether a line ends in the gap. -/
  lineEnd : Bool
  /-- The comments of the gap, in order. -/
  comments : List String
  /-- The place of the next token. -/
  stop : Position
  /-- The text from the next token on. -/
  rest : List Char

private inductive GapMode where
  | blank
  | lineComment (written : List Char)
  | blockComment (written : List Char)

private def commentText (written : List Char) : String :=
  String.ofList written.reverse

private def skipGapFrom
    (mode : GapMode)
    (lineEnd : Bool)
    (comments : List String)
    (place : Position) :
    List Char → Gap
  | [] =>
      match mode with
      | .blank => ⟨lineEnd, comments.reverse, place, []⟩
      | .lineComment written =>
          ⟨lineEnd, (commentText written :: comments).reverse, place, []⟩
      | .blockComment written =>
          ⟨lineEnd, (commentText written :: comments).reverse, place, []⟩
  | '*' :: '/' :: rest =>
      match mode with
      | .blank => ⟨lineEnd, comments.reverse, place, '*' :: '/' :: rest⟩
      | .lineComment written =>
          skipGapFrom (.lineComment ('/' :: '*' :: written)) lineEnd comments
            ((place.step '*').step '/') rest
      | .blockComment written =>
          skipGapFrom .blank lineEnd (commentText ('/' :: '*' :: written) :: comments)
            ((place.step '*').step '/') rest
  | '/' :: '/' :: rest =>
      match mode with
      | .blank =>
          skipGapFrom (.lineComment ['/', '/']) lineEnd comments
            ((place.step '/').step '/') rest
      | .lineComment written =>
          skipGapFrom (.lineComment ('/' :: '/' :: written)) lineEnd comments
            ((place.step '/').step '/') rest
      | .blockComment written =>
          skipGapFrom (.blockComment ('/' :: '/' :: written)) lineEnd comments
            ((place.step '/').step '/') rest
  | '/' :: '*' :: rest =>
      match mode with
      | .blank =>
          skipGapFrom (.blockComment ['*', '/']) lineEnd comments
            ((place.step '/').step '*') rest
      | .lineComment written =>
          skipGapFrom (.lineComment ('*' :: '/' :: written)) lineEnd comments
            ((place.step '/').step '*') rest
      | .blockComment written =>
          skipGapFrom (.blockComment ('/' :: written)) lineEnd comments
            (place.step '/') ('*' :: rest)
  | character :: rest =>
      match mode with
      | .blank =>
          if isBlank character then
            skipGapFrom .blank (lineEnd || isLineEnd character) comments
              (place.step character) rest
          else
            ⟨lineEnd, comments.reverse, place, character :: rest⟩
      | .lineComment written =>
          if isLineEnd character then
            skipGapFrom .blank true (commentText written :: comments)
              (place.step character) rest
          else
            skipGapFrom (.lineComment (character :: written)) lineEnd comments
              (place.step character) rest
      | .blockComment written =>
          skipGapFrom (.blockComment (character :: written)) (lineEnd || isLineEnd character)
            comments (place.step character) rest

/-- The blanks and comments at a place. -/
def skipGap (place : Position) (text : List Char) : Gap :=
  skipGapFrom .blank false [] place text

/-- A token and its surroundings. -/
structure Token where
  kind : TokenKind
  text : String
  span : Span
  /-- The gap before the token. -/
  afterLineEnd : Bool
  comments : List String
  /-- The text from the token's first character on. -/
  here : List Char
  /-- The text after the token. -/
  rest : List Char
  deriving Inhabited

/-- Splits off a word; `braced` while inside a braced character escape. -/
private def splitWord (braced : Bool) : List Char → List Char × List Char
  | [] => ([], [])
  | '\\' :: 'u' :: '\x7b' :: rest =>
      let (word, after) := splitWord true rest
      ('\\' :: 'u' :: '\x7b' :: word, after)
  | '\\' :: 'u' :: rest =>
      let (word, after) := splitWord false rest
      ('\\' :: 'u' :: word, after)
  | character :: rest =>
      if braced then
        let (word, after) := splitWord (character != '\x7d') rest
        (character :: word, after)
      else if isWordPart character then
        let (word, after) := splitWord false rest
        (character :: word, after)
      else
        ([], character :: rest)

/-- Splits off a quoted text up to its closing quote; `none` when the line ends first. -/
private def splitQuoted (quote : Char) : List Char → Option (List Char × List Char)
  | [] => none
  | '\\' :: character :: rest =>
      (splitQuoted quote rest).map fun (inside, after) => ('\\' :: character :: inside, after)
  | character :: rest =>
      if character == quote then
        some ([character], rest)
      else if character == '\n' then
        none
      else
        (splitQuoted quote rest).map fun (inside, after) => (character :: inside, after)

private def isNumeralPart (character : Char) : Bool :=
  isDigit character || isFlag character || character == '_'

private def isDecimalPart (character : Char) : Bool :=
  isDigit character || character == '_'

/-- Splits off an exponent such as `e-3`, if there is one. -/
private def splitExponent : List Char → List Char × List Char
  | mark :: sign :: digit :: rest =>
      if (mark == 'e' || mark == 'E') && (sign == '+' || sign == '-') && isDigit digit then
        let digits := rest.takeWhile isDecimalPart
        (mark :: sign :: digit :: digits, rest.dropWhile isDecimalPart)
      else if (mark == 'e' || mark == 'E') && isDigit sign then
        let digits := (digit :: rest).takeWhile isDecimalPart
        (mark :: sign :: digits, (digit :: rest).dropWhile isDecimalPart)
      else
        ([], mark :: sign :: digit :: rest)
  | mark :: digit :: rest =>
      if (mark == 'e' || mark == 'E') && isDigit digit then
        ([mark, digit], rest)
      else
        ([], mark :: digit :: rest)
  | rest => ([], rest)

/-- Splits off the fraction, the exponent and the suffix of a decimal number. -/
private def splitFraction (text : List Char) : List Char × List Char :=
  let (fraction, afterFraction) :=
    match text with
    | '.' :: rest => ('.' :: rest.takeWhile isDecimalPart, rest.dropWhile isDecimalPart)
    | rest => ([], rest)
  let (exponent, afterExponent) := splitExponent afterFraction
  match afterExponent with
  | 'n' :: rest => (fraction ++ exponent ++ ['n'], rest)
  | rest => (fraction ++ exponent, rest)

/-- Splits off a number that starts with a digit or a point. -/
private def splitNumber : List Char → List Char × List Char
  | '0' :: radix :: rest =>
      if radix ∈ ['x', 'X', 'o', 'O', 'b', 'B'] then
        ('0' :: radix :: rest.takeWhile isNumeralPart, rest.dropWhile isNumeralPart)
      else
        let whole := '0' :: (radix :: rest).takeWhile isDecimalPart
        let (fraction, after) := splitFraction ((radix :: rest).dropWhile isDecimalPart)
        (whole ++ fraction, after)
  | text =>
      let (fraction, after) := splitFraction (text.dropWhile isDecimalPart)
      (text.takeWhile isDecimalPart ++ fraction, after)

/-- Marks of three and of two characters; every other mark is one character. -/
private def longMarks : List (List Char) :=
  ["...", "===", "!==", "**=", "&&=", "||=", "??=", "=>", "==", "!=", "**", "&&", "||", "??",
    "++", "--", "+=", "-=", "*=", "/=", "%=", "&=", "|=", "^="].map String.toList

/-- Splits off the longest mark. -/
private def splitMark (text : List Char) : List Char × List Char :=
  match text with
  | '?' :: '.' :: next :: rest =>
      if isDigit next then (['?'], '.' :: next :: rest) else (['?', '.'], next :: rest)
  | _ =>
      match longMarks.find? fun mark => mark.isPrefixOf text with
      | some mark => (mark, text.drop mark.length)
      | none => (text.take 1, text.drop 1)

/-- The kind and characters of the token that a non-empty text starts with, and the rest. -/
private def splitToken (text : List Char) : TokenKind × List Char × List Char :=
  match text with
  | [] => (.endOfText, [], [])
  | first :: rest =>
      if isWordStart first || ['\\', 'u'].isPrefixOf text then
        let (word, after) := splitWord false text
        (.word, word, after)
      else if isDigit first then
        let (number, after) := splitNumber text
        (.number, number, after)
      else if first == '.' && (rest.take 1).any isDigit then
        let (number, after) := splitFraction text
        (.number, number, after)
      else if first == '#' && (rest.take 1).any isWordStart then
        let (word, after) := splitWord false rest
        (.privateName, first :: word, after)
      else if first == doubleQuote || first == singleQuote then
        match splitQuoted first rest with
        | some (inside, after) => (.string, first :: inside, after)
        | none => (.unknown, [first], rest)
      else if isMark first && first != backslash then
        let (mark, after) := splitMark text
        (.mark, mark, after)
      else
        (.unknown, [first], rest)

namespace Token

/-- The first token at or after a place. -/
def scan (place : Position) (text : List Char) : Token :=
  let gap := skipGap place text
  let (kind, characters, rest) := splitToken gap.rest
  { kind := kind
    text := String.ofList characters
    span := ⟨gap.stop, gap.stop.walk characters⟩
    afterLineEnd := gap.lineEnd
    comments := gap.comments
    here := gap.rest
    rest := rest }

/-- Whether the token is this mark. -/
def isMark (token : Token) (mark : String) : Bool :=
  token.kind == .mark && token.text == mark

/-- Whether the token is this word. -/
def isWord (token : Token) (word : String) : Bool :=
  token.kind == .word && token.text == word

end Token

/-- Splits a pattern literal after its opening slash; `inSet` inside a character set. -/
private def splitPattern (inSet : Bool) : List Char → Option (List Char × List Char)
  | [] => none
  | '\\' :: character :: rest =>
      (splitPattern inSet rest).map fun (inside, after) => ('\\' :: character :: inside, after)
  | character :: rest =>
      if character == '\n' then
        none
      else if character == '/' && !inSet then
        some (character :: rest.takeWhile isFlag, rest.dropWhile isFlag)
      else
        let inside := if character == '[' then true else if character == ']' then false else inSet
        (splitPattern inside rest).map fun (written, after) => (character :: written, after)

/-- The pattern literal that starts at a token, as a token. -/
def scanPattern (token : Token) : Option Token :=
  match token.here with
  | '/' :: rest =>
      (splitPattern false rest).map fun (written, after) =>
        let characters := '/' :: written
        { token with
          kind := .string
          text := String.ofList characters
          span := ⟨token.span.start, token.span.start.walk characters⟩
          rest := after }
  | _ => none

end CodeIndex.Source
