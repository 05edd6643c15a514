/-!
Contract: sets of characters given by ranges of their codes.

Owns:
- `CodeRange`: codes from a first to a last one, each a fixed step apart;
- `CodeRange.covers`: membership of a code in a table of ranges.

Does not own: any particular set of characters.
-/

set_option autoImplicit false

namespace CodeIndex.Text

/-- The codes `first`, `first + step`, … up to `last`. -/
structure CodeRange where
  first : Nat
  last : Nat
  step : Nat
  deriving DecidableEq, Repr, Inhabited

namespace CodeRange

/-- Whether a code is in the range. -/
def contains (range : CodeRange) (code : Nat) : Bool :=
  range.first ≤ code && code ≤ range.last && (code - range.first) % range.step == 0

/-- Whether a code is in one of the ranges. -/
def covers (ranges : List CodeRange) (code : Nat) : Bool :=
  ranges.any fun range => range.contains code

end CodeRange

end CodeIndex.Text
