import CodeIndex.Decimal.Binary
import CodeIndex.Text.Digits

/-!
Contract: numbers with a fixed number of decimal places.

Owns:
- `roundDiv`: a quotient rounded to the nearest whole number;
- `fixed`: a number with so many places, rounded from its exact value.
-/

set_option autoImplicit false

namespace CodeIndex.Decimal

/-- The nearest whole number to a quotient; a half goes to the even neighbour. -/
def roundDiv (numerator denominator : Nat) : Nat :=
  let whole := numerator / denominator
  let rest := numerator % denominator
  if 2 * rest > denominator ∨ (2 * rest = denominator ∧ whole % 2 = 1) then whole + 1 else whole

/-- The digits of a whole number of units, with a point before the last places. -/
def pointBefore (places units : Nat) : List Char :=
  let characters := Text.padLeft (places + 1) '0' (Text.digits units)
  if places = 0 then
    characters
  else
    let whole := characters.length - places
    characters.take whole ++ '.' :: characters.drop whole

/-- A number with a fixed number of places. -/
def fixed (places : Nat) (number : Float) : String :=
  match Binary.ofFloat number with
  | .notANumber => "NaN"
  | .infinite negative => if negative then "-inf" else "inf"
  | .finite negative mantissa exponent =>
      let numerator := mantissa * Nat.pow 10 places * Nat.pow 2 exponent.toNat
      let units := roundDiv numerator (Nat.pow 2 (-exponent).toNat)
      String.ofList ((if negative then ['-'] else []) ++ pointBefore places units)

end CodeIndex.Decimal
