import CodeIndex.Text.Digits

/-!
Contract: numbers from decimal digits.

Owns:
- `toFloat`: the number nearest to a decimal.
-/

set_option autoImplicit false

namespace CodeIndex.Decimal

/-- The number nearest to `units * 10 ^ power`. Powers far outside the range of numbers give zero
or infinity. -/
def toFloat (negative : Bool) (units : Nat) (power : Int) : Float :=
  let size := (Text.digits units).length
  let magnitude :=
    if units = 0 ∨ (size : Int) + power < -400 then 0.0
    else if (size : Int) + power > 400 then 1.0 / 0.0
    else if power < 0 then Float.ofScientific units true power.natAbs
    else Float.ofScientific units false power.natAbs
  if negative then -magnitude else magnitude

end CodeIndex.Decimal
