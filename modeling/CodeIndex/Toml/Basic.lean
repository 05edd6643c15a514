/-!
Contract: TOML values.

Owns:
- `Toml`: strings, numbers, truth values, dates, arrays and tables.

Does not own: how values are written, how tables are put together.
-/

set_option autoImplicit false

namespace CodeIndex

/-- A value of a TOML document. -/
inductive Toml where
  | string (text : String)
  | integer (value : Int)
  | float (value : Float)
  | bool (value : Bool)
  /-- A date, a time or both, as it was written. -/
  | moment (text : String)
  | array (items : List Toml)
  | table (members : List (String × Toml))

end CodeIndex
