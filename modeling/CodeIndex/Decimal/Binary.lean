/-!
Contract: what a floating-point number is exactly.

Owns:
- `Binary`: a number as a whole multiple of a power of two;
- `Binary.ofFloat`.
-/

set_option autoImplicit false

namespace CodeIndex.Decimal

/-- A floating-point number taken apart. -/
inductive Binary where
  | notANumber
  | infinite (negative : Bool)
  /-- The number `mantissa * 2 ^ exponent`. -/
  | finite (negative : Bool) (mantissa : Nat) (exponent : Int)
  deriving DecidableEq, Repr

namespace Binary

/-- The bit above the 52 bits of the fraction, which is left out where it is set. -/
def implicitBit : Nat := Nat.pow 2 52

/-- How many values the eleven bits of the exponent have. -/
def exponentCount : Nat := Nat.pow 2 11

/-- The exponent of the numbers nearest to zero. -/
def leastExponent : Int := -1074

/-- The parts of a number: sign, eleven bits of exponent, 52 bits of fraction. -/
def ofFloat (number : Float) : Binary :=
  let bits := number.toBits.toNat
  let negative := decide (implicitBit * exponentCount ≤ bits)
  let exponent : Nat := bits / implicitBit % exponentCount
  let fraction : Nat := bits % implicitBit
  if exponent = exponentCount - 1 then
    if fraction = 0 then .infinite negative else .notANumber
  else if exponent = 0 then
    .finite negative fraction leastExponent
  else
    .finite negative (implicitBit + fraction) (leastExponent + exponent - 1)

end Binary

end CodeIndex.Decimal
