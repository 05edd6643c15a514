import CodeIndex.Json.Basic
import Std.Data.ExtTreeMap

/-!
Contract: typed values from JSON.

Owns:
- readers of texts, truth values, whole numbers, lists and maps;
- `Json.fields?`: the parts of a record by name or by place;
- `Json.within?`: how deep arrays and objects may be nested.

A record may be written as an object or as an array of its fields. In an object, fields with other
names are passed over and no field may be given twice. An array may leave out fields at its end.
-/

set_option autoImplicit false

namespace CodeIndex.Json

def text? : Json → Option String
  | .string text => text
  | _ => none

def bool? : Json → Option Bool
  | .bool value => some value
  | _ => none

/-- A whole number written without fraction and exponent; minus zero is none. -/
def integer? : Json → Option Int
  | .number written =>
      match written.toList with
      | '-' :: rest =>
          match Text.ofDigits? rest with
          | some 0 => none
          | some magnitude => some (-(magnitude : Int))
          | none => none
      | characters => (Text.ofDigits? characters).map fun magnitude => (magnitude : Int)
  | _ => none

/-- A whole number from zero up to a bound. -/
def natBelow? (bound : Nat) (value : Json) : Option Nat :=
  match value.integer? with
  | some whole => if 0 ≤ whole ∧ whole < bound then some whole.toNat else none
  | none => none

def uint32? (value : Json) : Option UInt32 :=
  (natBelow? UInt32.size value).map UInt32.ofNat

def int64? (value : Json) : Option Int64 :=
  match value.integer? with
  | some whole =>
      if Int64.minValue.toInt ≤ whole ∧ whole ≤ Int64.maxValue.toInt then
        some (Int64.ofInt whole)
      else
        none
  | none => none

/-- Items decoded one by one. -/
def decodeAll? {α : Type} (decode : Json → Option α) : List Json → Option (List α)
  | [] => some []
  | item :: rest =>
      match decode item, decodeAll? decode rest with
      | some value, some values => some (value :: values)
      | _, _ => none

/-- An array whose items are all decoded. -/
def list? {α : Type} (decode : Json → Option α) : Json → Option (List α)
  | .array items => decodeAll? decode items
  | _ => none

/-- Nothing for `null`, otherwise something. -/
def optional? {α : Type} (decode : Json → Option α) : Json → Option (Option α)
  | .null => some none
  | value => (decode value).map some

/-- Members decoded one by one; the last of a name counts. -/
def decodeMembers? {α : Type} (decode : Json → Option α) :
    List (Option String × Json) → Std.ExtTreeMap String α → Option (Std.ExtTreeMap String α)
  | [], entries => some entries
  | (some name, value) :: rest, entries =>
      match decode value with
      | some decoded => decodeMembers? decode rest (entries.insert name decoded)
      | none => none
  | (none, _) :: _, _ => none

/-- An object whose members are all decoded. -/
def map? {α : Type} (decode : Json → Option α) : Json → Option (Std.ExtTreeMap String α)
  | .object members => decodeMembers? decode members ∅
  | _ => none

/-- The values of all members with a name. -/
def valuesOf (members : List (Option String × Json)) (name : String) : List Json :=
  members.filterMap fun member => if member.1 == some name then some member.2 else none

/-- The value of the member with a name, if there is at most one. -/
def single? (members : List (Option String × Json)) (name : String) :
    Option (Option Json) :=
  match valuesOf members name with
  | [] => some none
  | [value] => some (some value)
  | _ => none

/-- Values brought to the number of fields. -/
private def padFields (names : List String) (items : List Json) : Option (List (Option Json)) :=
  if items.length ≤ names.length then
    some (items.map some ++ List.replicate (names.length - items.length) none)
  else
    none

/-- The parts of a record, in the order of the given names; a part that is left out is `none`. -/
def fields? (names : List String) : Json → Option (List (Option Json))
  | .object members =>
      if members.all fun member => member.1.isSome then
        names.mapM (single? members)
      else
        none
  | .array items => padFields names items
  | _ => none

/-- The value of a part that may be left out. -/
def fieldOr? {α : Type} (decode : Json → Option α) (absent : α) : Option Json → Option α
  | some value => decode value
  | none => some absent

/-- The name of a case: a string, or an object with that one name and nothing for its value. -/
def caseName? (levels : Nat) : Json → Option String
  | .string text => text
  | .object [(name, .null)] => if levels = 0 then none else name
  | _ => none

/-- Decodes an array or an object one level further down, if there is a level left. -/
def within? {α : Type} (levels : Nat) (decode : Nat → Json → Option α) (value : Json) : Option α :=
  match levels with
  | 0 => none
  | rest + 1 => decode rest value

end CodeIndex.Json
