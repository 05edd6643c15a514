/-!
Contract: white space and trimming.

Owns:
- `isBlank`: the white space of the Unicode standard;
- `trimStartWhile`, `trimEndWhile`, `trim`: a text without some characters, or without white space,
  at its ends.
-/

set_option autoImplicit false

namespace CodeIndex.Text

/-- Spaces and line ends of every script. -/
def isBlank (character : Char) : Bool :=
  let code := character.toNat
  code == 0x20 || (0x09 ≤ code && code ≤ 0x0D) || code == 0x85 || code == 0xA0 ||
    code == 0x1680 || (0x2000 ≤ code && code ≤ 0x200A) || code == 0x2028 || code == 0x2029 ||
    code == 0x202F || code == 0x205F || code == 0x3000

/-- The characters without the leading ones that a test accepts. -/
def trimStartWhile (accepts : Char → Bool) (characters : List Char) : List Char :=
  characters.dropWhile accepts

/-- The characters without the trailing ones that a test accepts. -/
def trimEndWhile (accepts : Char → Bool) (characters : List Char) : List Char :=
  (characters.reverse.dropWhile accepts).reverse

/-- The characters without white space at their ends. -/
def trimCharacters (characters : List Char) : List Char :=
  trimEndWhile isBlank (trimStartWhile isBlank characters)

/-- The text without white space at its ends. -/
def trim (text : String) : String :=
  String.ofList (trimCharacters text.toList)

end CodeIndex.Text
