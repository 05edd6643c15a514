import CodeIndex.Source.Character
import CodeIndex.Text.Digits
import CodeIndex.Toml.Basic

/-!
Contract: dates and times in TOML documents.

Owns:
- `Toml.scanMoment`: a date, a time of day or both, or the finding that there is none.
-/

set_option autoImplicit false

namespace CodeIndex.Toml

/-- What comes of the search for a date or a time. -/
inductive MomentScan where
  | found (rest : List Char)
  | absent
  | malformed

/-- A number of exactly so many digits. -/
private def scanPlaces? (count : Nat) (text : List Char) : Option (Nat × List Char) :=
  let digits := text.take count
  if digits.length = count ∧ digits.all Source.Character.isDigit then
    (Text.ofDigits? digits).map fun value => (value, text.drop count)
  else
    none

/-- A number of two digits within bounds. -/
private def scanPair? (low high : Nat) (text : List Char) : Option (Nat × List Char) :=
  match scanPlaces? 2 text with
  | some (value, rest) => if low ≤ value ∧ value ≤ high then some (value, rest) else none
  | none => none

/-- What follows a given character. -/
private def expect? (expected : Char) : List Char → Option (List Char)
  | character :: rest => if character = expected then some rest else none
  | [] => none

/-- The number of days in a month. -/
def daysIn (year month : Nat) : Nat :=
  if month = 2 then
    if year % 4 = 0 ∧ (year % 100 ≠ 0 ∨ year % 400 = 0) then 29 else 28
  else if month = 4 ∨ month = 6 ∨ month = 9 ∨ month = 11 then 30
  else 31

/-- Month and day of a date, after the year and a hyphen. -/
private def scanMonthDay? (year : Nat) (text : List Char) : Option (List Char) := do
  let (month, afterMonth) ← scanPair? 1 12 text
  let afterHyphen ← expect? '-' afterMonth
  let (day, rest) ← scanPair? 1 31 afterHyphen
  if day ≤ daysIn year month then some rest else none

/-- A fraction of a second, if there is one. -/
private def skipFraction (text : List Char) : List Char :=
  match text with
  | '.' :: rest =>
      match rest.takeWhile Source.Character.isDigit with
      | [] => text
      | _ => rest.dropWhile Source.Character.isDigit
  | _ => text

/-- Minute and second, after the hour and a colon. -/
private def scanMinuteSecond? (text : List Char) : Option (List Char) := do
  let (_, afterMinute) ← scanPair? 0 59 text
  let afterColon ← expect? ':' afterMinute
  let (_, rest) ← scanPair? 0 60 afterColon
  return skipFraction rest

/-- A time of day. -/
private def scanTime (text : List Char) : MomentScan :=
  match scanPlaces? 2 text with
  | some (hour, ':' :: rest) =>
      if hour ≤ 23 then
        match scanMinuteSecond? rest with
        | some after => .found after
        | none => .malformed
      else
        .malformed
  | _ => .absent

/-- The distance from universal time, if it is given. -/
private def scanOffset (text : List Char) : MomentScan :=
  match text with
  | 'Z' :: rest => .found rest
  | 'z' :: rest => .found rest
  | sign :: rest =>
      if sign == '+' || sign == '-' then
        match scanPair? 0 23 rest with
        | some (_, ':' :: afterColon) =>
            match scanPair? 0 59 afterColon with
            | some (_, after) => .found after
            | none => .malformed
        | _ => .malformed
      else
        .absent
  | [] => .absent

/-- The time of day after a date, if there is one. -/
private def scanTimeOfDate (text : List Char) : MomentScan :=
  match text with
  | mark :: rest =>
      if mark == 'T' || mark == 't' || mark == ' ' then
        match scanTime rest with
        | .found afterTime =>
            match scanOffset afterTime with
            | .found after => .found after
            | .absent => .found afterTime
            | .malformed => .malformed
        | .absent => .found text
        | .malformed => .malformed
      else
        .found text
  | [] => .found []

/-- A date, a time of day or both. Four digits with a hyphen after them begin a date, two with a
colon after them a time. -/
def scanMoment (text : List Char) : MomentScan :=
  match scanPlaces? 4 text with
  | some (year, '-' :: rest) =>
      match scanMonthDay? year rest with
      | some after => scanTimeOfDate after
      | none => .malformed
  | _ => scanTime text

end CodeIndex.Toml
