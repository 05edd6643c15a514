import CodeIndex.Decimal.Read
import CodeIndex.Decimal.Shortest
import CodeIndex.Json.Decode
import CodeIndex.Source.Character

/-!
Contract: JSON numbers as floating-point numbers.

Owns:
- `Json.float?`: the number nearest to the digits of a JSON number;
- `Json.ofFloat`: the shortest digits that are read back as a number.
-/

set_option autoImplicit false

namespace CodeIndex.Json

/-- The whole number of a sign and digits. -/
private def signed (characters : List Char) : Int :=
  match characters with
  | '-' :: rest => -(((Text.ofDigits? rest).getD 0 : Nat) : Int)
  | '+' :: rest => ((Text.ofDigits? rest).getD 0 : Nat)
  | _ => ((Text.ofDigits? characters).getD 0 : Nat)

/-- The value of a number without its minus sign. -/
private def magnitude (negative : Bool) (characters : List Char) : Float :=
  let isExponent := fun character => character == 'e' || character == 'E'
  let mantissa := characters.takeWhile fun character => !isExponent character
  let exponent := signed ((characters.dropWhile fun character => !isExponent character).drop 1)
  let whole := mantissa.takeWhile (· != '.')
  let fraction := (mantissa.dropWhile (· != '.')).drop 1
  Decimal.toFloat negative ((Text.ofDigits? (whole ++ fraction)).getD 0)
    (exponent - fraction.length)

/-- The number nearest to a JSON number. -/
def float? : Json → Option Float
  | .number written =>
      match written.toList with
      | '-' :: rest => some (magnitude true rest)
      | characters => some (magnitude false characters)
  | _ => none

/-- A number as JSON. What is not finite has no digits. -/
def ofFloat (number : Float) : Json :=
  match Decimal.plain? number with
  | some digits => .number digits
  | none => .null

end CodeIndex.Json
