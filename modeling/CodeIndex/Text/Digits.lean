/-!
Contract: whole numbers as digits.

Owns:
- `digits`, `hexDigits`: the digits of a number, without leading zeros;
- `padLeft`, `padRight`: a text brought to a length;
- `ofDigits?`, `ofHexDigits?`: the number of a row of digits.
-/

set_option autoImplicit false

namespace CodeIndex.Text

/-- The character of a digit below sixteen; letters are small. -/
def digitCharacter (digit : Nat) : Char :=
  if digit < 10 then Char.ofNat (48 + digit) else Char.ofNat (87 + digit)

/-- The digits of a number in a base of at least two. -/
def digitsIn (base : Nat) (atLeastTwo : 2 ≤ base) (number : Nat) : List Char :=
  if number < base then
    [digitCharacter number]
  else
    digitsIn base atLeastTwo (number / base) ++ [digitCharacter (number % base)]
termination_by number
decreasing_by exact Nat.div_lt_self (by omega) atLeastTwo

/-- The decimal digits of a number. -/
def digits (number : Nat) : List Char :=
  digitsIn 10 (by decide) number

/-- The hexadecimal digits of a number. -/
def hexDigits (number : Nat) : List Char :=
  digitsIn 16 (by decide) number

/-- Characters with others put before them up to a length. -/
def padLeft (length : Nat) (filler : Char) (characters : List Char) : List Char :=
  List.replicate (length - characters.length) filler ++ characters

/-- Characters with others put after them up to a length. -/
def padRight (length : Nat) (filler : Char) (characters : List Char) : List Char :=
  characters ++ List.replicate (length - characters.length) filler

/-- The decimal digits of a number as a text. -/
def ofNat (number : Nat) : String :=
  String.ofList (digits number)

/-- The digits of a whole number, with a minus sign if it is negative. -/
def ofInt (number : Int) : String :=
  if number < 0 then "-" ++ ofNat number.natAbs else ofNat number.natAbs

/-- The value of a hexadecimal digit of either case. -/
def hexValue? (character : Char) : Option Nat :=
  if '0' ≤ character ∧ character ≤ '9' then
    some (character.toNat - 48)
  else if 'a' ≤ character ∧ character ≤ 'f' then
    some (character.toNat - 87)
  else if 'A' ≤ character ∧ character ≤ 'F' then
    some (character.toNat - 55)
  else
    none

/-- The value of a digit in a base of at most sixteen. -/
def digitValue? (base : Nat) (character : Char) : Option Nat :=
  match hexValue? character with
  | some value => if value < base then some value else none
  | none => none

/-- The number that digits continue. -/
def continueDigits? (base : Nat) : Nat → List Char → Option Nat
  | number, [] => some number
  | number, character :: rest =>
      match digitValue? base character with
      | some value => continueDigits? base (number * base + value) rest
      | none => none

/-- The number of a row of digits that is not empty. -/
def ofDigitsIn? (base : Nat) (characters : List Char) : Option Nat :=
  if characters.isEmpty then none else continueDigits? base 0 characters

/-- The number of a row of decimal digits. -/
def ofDigits? (characters : List Char) : Option Nat :=
  ofDigitsIn? 10 characters

/-- The number of a row of hexadecimal digits. -/
def ofHexDigits? (characters : List Char) : Option Nat :=
  ofDigitsIn? 16 characters

end CodeIndex.Text
