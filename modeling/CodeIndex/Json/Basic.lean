import CodeIndex.Text.Digits

/-!
Contract: JSON values.

Owns:
- `Json`: a value as it is written, with members in order;
- constructors for texts, numbers and records.

Numbers are kept as written, because a reader may want any precision. A string whose escapes name
no characters has no text: such a string may be skipped, but not read.
-/

set_option autoImplicit false

namespace CodeIndex

/-- A JSON value. -/
inductive Json where
  | null
  | bool (value : Bool)
  /-- A number with the digits as written. -/
  | number (digits : String)
  | string (text : Option String)
  | array (items : List Json)
  /-- Members in order; a name may occur more than once. -/
  | object (members : List (Option String × Json))
  deriving Inhabited

namespace Json

/-- A string with a text. -/
def ofText (text : String) : Json :=
  .string (some text)

def ofNat (number : Nat) : Json :=
  .number (Text.ofNat number)

def ofInt (number : Int) : Json :=
  .number (Text.ofInt number)

/-- An object with members of given names. -/
def record (members : List (String × Json)) : Json :=
  .object (members.map fun member => (some member.1, member.2))

/-- A list of strings. -/
def ofTexts (texts : List String) : Json :=
  .array (texts.map ofText)

/-- The value of the last member with a name. -/
def member? (name : String) : Json → Option Json
  | .object members => (members.reverse.find? fun member => member.1 == some name).map (·.2)
  | _ => none

end Json

end CodeIndex
