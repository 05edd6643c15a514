import CodeIndex.Decimal.Binary
import CodeIndex.Text.Digits

/-!
Contract: numbers with as few digits as tell them apart.

Owns:
- `shortest`: the decimal with the fewest digits that is nearer to a number than to any other;
- `plain`: that decimal as a text.
-/

set_option autoImplicit false

namespace CodeIndex.Decimal

/-- `left * 10 ^ power` against `right * 2 ^ exponent`, both made whole. -/
private def scaled (left : Nat) (power : Int) (right : Nat) (exponent : Int) : Nat × Nat :=
  (left * Nat.pow 10 power.toNat * Nat.pow 2 (-exponent).toNat,
    right * Nat.pow 2 exponent.toNat * Nat.pow 10 (-power).toNat)

/-- The numbers that are read back as `mantissa * 2 ^ exponent`: their ends as multiples of a
quarter of its unit, and whether the ends belong to them. -/
structure Interval where
  low : Nat
  middle : Nat
  high : Nat
  /-- The power of two that the three are multiples of. -/
  exponent : Int
  closed : Bool

/-- Half a unit to both sides; less far down from a power of two, where numbers are denser. -/
def Interval.around (mantissa : Nat) (exponent : Int) : Interval :=
  let sparse := mantissa = Binary.implicitBit ∧ exponent ≠ Binary.leastExponent
  { low := if sparse then 4 * mantissa - 1 else 4 * mantissa - 2
    middle := 4 * mantissa
    high := 4 * mantissa + 2
    exponent := exponent - 2
    closed := mantissa % 2 = 0 }

/-- Whether `units * 10 ^ power` is in the interval. -/
def Interval.contains (interval : Interval) (units : Nat) (power : Int) : Bool :=
  let (low, lowEnd) := scaled units power interval.low interval.exponent
  let (high, highEnd) := scaled units power interval.high interval.exponent
  if interval.closed then
    lowEnd ≤ low && high ≤ highEnd
  else
    lowEnd < low && high < highEnd

/-- The better of the two multiples of `10 ^ power` next to the middle, if one is inside. -/
def Interval.onGrid? (interval : Interval) (power : Int) : Option Nat :=
  let (unit, middle) := scaled 1 power interval.middle interval.exponent
  let below := middle / unit
  let rest := middle % unit
  let lower := below != 0 && interval.contains below power
  let upper := interval.contains (below + 1) power
  if lower && upper then
    if 2 * rest < unit || (2 * rest == unit && below % 2 == 0) then some below
    else some (below + 1)
  else if lower then
    some below
  else if upper then
    some (below + 1)
  else
    none

/-- The coarsest grid with a multiple inside, from a power of ten downward. -/
def Interval.coarsest (interval : Interval) : Nat → Int → Nat × Int
  | 0, power => (0, power)
  | steps + 1, power =>
      match interval.onGrid? power with
      | some units => (units, power)
      | none => interval.coarsest steps (power - 1)

/-- The digits and the power of ten of the shortest decimal for a number that is not zero. -/
def shortest (mantissa : Nat) (exponent : Int) : Nat × Int :=
  (Interval.around mantissa exponent).coarsest 700 309

/-- A decimal as text. The point is written where it is near the digits, with a zero after it if
nothing else follows; otherwise there is one digit before the point and a power of ten. -/
def layout (units : Nat) (power : Int) : List Char :=
  let characters := Text.digits units
  let point := (characters.length : Int) + power
  if 0 ≤ power ∧ point ≤ 16 then
    characters ++ List.replicate power.toNat '0' ++ ['.', '0']
  else if 0 < point ∧ point ≤ 16 then
    characters.take point.toNat ++ '.' :: characters.drop point.toNat
  else if -5 < point ∧ point ≤ 0 then
    '0' :: '.' :: List.replicate (-point).toNat '0' ++ characters
  else
    let fraction := if characters.length = 1 then [] else '.' :: characters.drop 1
    characters.take 1 ++ fraction ++ 'e' :: (Text.ofInt (point - 1)).toList

/-- The shortest text of a finite number. -/
def plain? (number : Float) : Option String :=
  match Binary.ofFloat number with
  | .finite negative mantissa exponent =>
      let sign := if negative then ['-'] else []
      if mantissa = 0 then
        some (String.ofList (sign ++ ['0', '.', '0']))
      else
        let (units, power) := shortest mantissa exponent
        some (String.ofList (sign ++ layout units power))
  | _ => none

end CodeIndex.Decimal
