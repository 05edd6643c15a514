/-!
Contract: the character classes of script source text.

Owns:
- `isBlank`: characters that only separate tokens;
- `isWordPart`, `isWordStart`: characters of names and keywords;
- `isDigit`, `isFlag`: characters of literals.

A word may hold any character that is neither a control character, nor a
blank, nor one of the marks of the language, so letters of every script,
symbols and pictographs all count.
-/

set_option autoImplicit false

namespace CodeIndex.Source.Character

def singleQuote : Char := '\x27'

def doubleQuote : Char := '\x22'

def backquote : Char := '\x60'

def backslash : Char := '\x5c'

/-- Space separators beyond the plain space. -/
def isSpaceSeparator (character : Char) : Bool :=
  let code := character.toNat
  code == 0xA0 || code == 0x1680 || (0x2000 ≤ code && code ≤ 0x200A) || code == 0x202F ||
    code == 0x205F || code == 0x3000

/-- Blanks: spaces, line ends, the byte order mark and the zero-width spaces. -/
def isBlank (character : Char) : Bool :=
  let code := character.toNat
  code == 0x20 || (0x09 ≤ code && code ≤ 0x0D) || isSpaceSeparator character ||
    code == 0xFEFF || code == 0x2028 || code == 0x2029 || code == 0x2060 || code == 0x200B

/-- Characters that end a line for the rules on omitted semicolons. -/
def isLineEnd (character : Char) : Bool :=
  character == '\n' || character == '\x0d' || character.toNat == 0x2028 ||
    character.toNat == 0x2029

def isDigit (character : Char) : Bool :=
  '0' ≤ character && character ≤ '9'

/-- Letters after a pattern literal. -/
def isFlag (character : Char) : Bool :=
  ('a' ≤ character && character ≤ 'z') || ('A' ≤ character && character ≤ 'Z')

/-- Marks of the language, which no word holds. -/
def isMark (character : Char) : Bool :=
  character ∈ [':', ';', backquote, doubleQuote, singleQuote, '@', '#', '.', ',', '|', '^', '&',
    '<', '=', '>', '+', '-', '*', '/', backslash, '%', '?', '!', '~', '(', ')', '[', ']', '\x7b',
    '\x7d']

def isWordPart (character : Char) : Bool :=
  0x1F < character.toNat && !isBlank character && !isMark character

def isWordStart (character : Char) : Bool :=
  isWordPart character && !isDigit character

end CodeIndex.Source.Character
