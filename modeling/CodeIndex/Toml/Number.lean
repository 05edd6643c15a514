import CodeIndex.Decimal.Read
import CodeIndex.Source.Character
import CodeIndex.Toml.Basic

/-!
Contract: numbers in TOML documents.

Owns:
- `Toml.scanDigits?`: digits with single underscores between them;
- `Toml.scanInteger?`: whole numbers in four bases, within 64 bits;
- `Toml.scanNumber?`: these, numbers with a fraction or an exponent, and the words for others.
-/

set_option autoImplicit false

namespace CodeIndex.Toml

/-- Digits with single underscores between them, without those. -/
def scanDigits? (isDigit : Char → Bool) : List Char → Option (List Char × List Char)
  | [] => none
  | character :: rest =>
      if isDigit character then
        match rest with
        | '_' :: more =>
            (scanDigits? isDigit more).map fun result => (character :: result.1, result.2)
        | next :: more =>
            if isDigit next then
              (scanDigits? isDigit (next :: more)).map fun result =>
                (character :: result.1, result.2)
            else
              some ([character], rest)
        | [] => some ([character], [])
      else
        none

/-- A sign, if there is one. -/
def scanSign (text : List Char) : Bool × List Char :=
  match text with
  | '-' :: rest => (true, rest)
  | '+' :: rest => (false, rest)
  | _ => (false, text)

/-- The digits of a whole number: one that is zero has no others. -/
def scanWhole? (text : List Char) : Option (List Char × List Char) :=
  match text with
  | '0' :: rest => some (['0'], rest)
  | _ => scanDigits? Source.Character.isDigit text

/-- A whole number within 64 bits. -/
def boundedInteger? (negative : Bool) (magnitude : Nat) : Option Toml :=
  let whole : Int := if negative then -(magnitude : Int) else magnitude
  if Int64.minValue.toInt ≤ whole ∧ whole ≤ Int64.maxValue.toInt then
    some (.integer whole)
  else
    none

/-- A number in another base, after the letter for it. -/
private def scanBase? (base : Nat) (text : List Char) : Option (Toml × List Char) := do
  let (digits, rest) ← scanDigits? (fun digit => (Text.digitValue? base digit).isSome) text
  let value ← Text.ofDigitsIn? base digits
  return (← boundedInteger? false value, rest)

/-- A whole number. -/
def scanInteger? (text : List Char) : Option (Toml × List Char) :=
  match text with
  | '0' :: 'x' :: rest => scanBase? 16 rest
  | '0' :: 'o' :: rest => scanBase? 8 rest
  | '0' :: 'b' :: rest => scanBase? 2 rest
  | _ =>
      let (negative, afterSign) := scanSign text
      match scanWhole? afterSign with
      | some (digits, rest) =>
          match (Text.ofDigits? digits).bind (boundedInteger? negative) with
          | some value => some (value, rest)
          | none => none
      | none => none

/-- What the scan of a part that may be left out comes to. -/
inductive Part where
  | absent
  | digits (negative : Bool) (digits : List Char) (rest : List Char)
  | malformed

/-- A point and the digits after it. -/
private def scanFraction (text : List Char) : Part :=
  match text with
  | '.' :: rest =>
      match scanDigits? Source.Character.isDigit rest with
      | some (digits, after) => .digits false digits after
      | none => .malformed
  | _ => .absent

/-- The letter of an exponent and its digits. -/
private def scanExponent (text : List Char) : Part :=
  match text with
  | letter :: rest =>
      if letter == 'e' || letter == 'E' then
        let (negative, afterSign) := scanSign rest
        match scanDigits? Source.Character.isDigit afterSign with
        | some (digits, after) => .digits negative digits after
        | none => .malformed
      else
        .absent
  | [] => .absent

/-- The number of its parts, if it is not too large. -/
private def assemble? (negative : Bool) (whole fraction : List Char) (exponent : Int)
    (rest : List Char) : Option (Toml × List Char) :=
  let units := (Text.ofDigits? (whole ++ fraction)).getD 0
  let value := Decimal.toFloat negative units (exponent - fraction.length)
  if value == 1.0 / 0.0 then none else some (.float value, rest)

/-- A number that needs a fraction or an exponent, after its sign. Nothing if it has neither. -/
private def scanScientific (negative : Bool) (text : List Char) :
    Option (Option (Toml × List Char)) :=
  match scanWhole? text with
  | none => none
  | some (whole, afterWhole) =>
      let finish := fun (fraction : List Char) (rest : List Char) =>
        match scanExponent rest with
        | .absent => assemble? negative whole fraction 0 rest
        | .digits below digits after =>
            let size : Int := ((Text.ofDigits? digits).getD 0 : Nat)
            assemble? negative whole fraction (if below then -size else size) after
        | .malformed => none
      match scanFraction afterWhole with
      | .malformed => some none
      | .digits _ fraction rest => some (finish fraction rest)
      | .absent =>
          match scanExponent afterWhole with
          | .absent => none
          | _ => some (finish [] afterWhole)

/-- A word for infinity or for no number. -/
private def scanSpecial? (negative : Bool) (text : List Char) : Option (Toml × List Char) :=
  match text with
  | 'i' :: 'n' :: 'f' :: rest =>
      some (.float (if negative then -(1.0 / 0.0) else 1.0 / 0.0), rest)
  | 'n' :: 'a' :: 'n' :: rest => some (.float (0.0 / 0.0), rest)
  | _ => none

/-- A number of any kind. -/
def scanNumber? (text : List Char) : Option (Toml × List Char) :=
  let (negative, afterSign) := scanSign text
  match scanScientific negative afterSign with
  | some result => result
  | none =>
      match scanSpecial? negative afterSign with
      | some result => some result
      | none => scanInteger? text

end CodeIndex.Toml
