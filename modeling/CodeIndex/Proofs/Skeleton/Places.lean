import CodeIndex.Proofs.Path
import CodeIndex.Skeleton

/-!
Contract: places of a text, by row and column and by byte.

Owns:
- `Text.bytes`: the bytes of a text;
- `Text.fedBytes`: the bytes of rows, each with a line feed before it;
- `Text.rowOffset`: the bytes before a row;
- `Text.IsPlace`: a row that there is and a column where no character is cut;
- `Text.extract_to_place`, `Text.extract_from_place`: the bytes before and after a place.

A text is its rows with line feeds between them. With one more line feed in front every row has
its own, the first one too, so that rows can be cut off and put together without a special case.
-/

set_option autoImplicit false

namespace CodeIndex.Text

/-! ## Bytes -/

/-- The bytes of a text. -/
def bytes (text : String) : List UInt8 :=
  text.toUTF8.data.toList

@[simp] theorem bytes_append (left right : String) :
    bytes (left ++ right) = bytes left ++ bytes right := by
  simp [bytes]

@[simp] theorem length_bytes (text : String) : (bytes text).length = text.utf8ByteSize :=
  String.size_toByteArray

/-- The byte that ends a row. -/
def lineFeed : UInt8 := 10

/-- The bytes of rows, each with a line feed before it. -/
def fedBytes (rows : List String) : List UInt8 :=
  rows.flatMap fun row => lineFeed :: bytes row

@[simp] theorem fedBytes_nil : fedBytes [] = [] :=
  rfl

@[simp] theorem fedBytes_cons (row : String) (rows : List String) :
    fedBytes (row :: rows) = lineFeed :: bytes row ++ fedBytes rows :=
  List.flatMap_cons

@[simp] theorem fedBytes_append (left right : List String) :
    fedBytes (left ++ right) = fedBytes left ++ fedBytes right :=
  List.flatMap_append

theorem bytes_join (first : String) (rest : List String) :
    bytes (join "\n" (first :: rest)) = bytes first ++ fedBytes rest := by
  induction rest generalizing first with
  | nil => simp [join]
  | cons second more inductionHypothesis =>
      have feed : bytes "\n" = [lineFeed] := by decide
      rw [join, bytes_append, bytes_append, feed, inductionHypothesis, fedBytes_cons]
      · simp
      · simp

/-- With a line feed in front of the text, its first row is like the others. -/
theorem fedBytes_eq_cons {rows : List String} (nonempty : ¬ rows = []) :
    fedBytes rows = lineFeed :: bytes (join "\n" rows) := by
  cases rows with
  | nil => exact absurd rfl nonempty
  | cons first rest => rw [bytes_join, fedBytes_cons, List.cons_append]

theorem join_split (text : String) : join "\n" (split '\n' text) = text :=
  join_singleton_split '\n' text

theorem split_ne_nil (separator : Char) (text : String) : ¬ split separator text = [] := by
  simp [split, splitCharacters_ne_nil]

/-! ## Rows -/

/-- The number of bytes before a row: those of the rows above it, with their line feeds. -/
def rowOffset : List String → Nat → Nat
  | _, 0 => 0
  | [], _ + 1 => 0
  | first :: rest, row + 1 => first.utf8ByteSize + 1 + rowOffset rest row

theorem rowOffset_eq (rows : List String) (row : Nat) :
    rowOffset rows row = (fedBytes (rows.take row)).length := by
  induction rows generalizing row with
  | nil => cases row <;> simp [rowOffset]
  | cons first rest inductionHypothesis =>
      cases row with
      | zero => rfl
      | succ row =>
          simp only [rowOffset, inductionHypothesis, List.take_succ_cons, fedBytes_cons,
            List.length_append, List.length_cons, length_bytes]

theorem rowOffset_succ {rows : List String} {row : Nat} {text : String}
    (found : rows[row]? = some text) :
    rowOffset rows (row + 1) = rowOffset rows row + text.utf8ByteSize + 1 := by
  rw [rowOffset_eq, rowOffset_eq, List.take_add_one, found]
  simp
  omega

/-- The rows above a row, cut at an earlier one. -/
theorem fedBytes_take (rows : List String) {row other : Nat} (before : row ≤ other) :
    fedBytes (rows.take other) =
      fedBytes (rows.take row) ++ fedBytes ((rows.take other).drop row) := by
  have above : (rows.take other).take row = rows.take row := by
    rw [List.take_take, Nat.min_eq_left before]
  rw [← fedBytes_append, ← above, List.take_append_drop]

theorem rowOffset_mono (rows : List String) {row other : Nat} (before : row ≤ other) :
    rowOffset rows row ≤ rowOffset rows other := by
  rw [rowOffset_eq, rowOffset_eq, fedBytes_take rows before, List.length_append]
  omega

/-- The rows between two of them are the bytes between their offsets. -/
theorem drop_rowOffset (rows : List String) {row other : Nat} (before : row ≤ other) :
    (fedBytes (rows.take other)).drop (rowOffset rows row) =
      fedBytes ((rows.take other).drop row) := by
  rw [fedBytes_take rows before, rowOffset_eq, List.drop_left]

/-! ## Places -/

/-- There is such a row, and no character of it is cut at the column. -/
def IsPlace (rows : List String) (row column : Nat) : Prop :=
  ∃ before after : String, rows[row]? = some (before ++ after) ∧ before.utf8ByteSize = column

/-- The number of bytes before a place. -/
def placeOffset (rows : List String) (row column : Nat) : Nat :=
  rowOffset rows row + column

namespace IsPlace

variable {rows : List String} {row column : Nat}

theorem row_lt (place : IsPlace rows row column) : row < rows.length := by
  obtain ⟨before, after, found, _⟩ := place
  exact (List.getElem?_eq_some_iff.mp found).1

/-- A place comes before all later rows. -/
theorem offset_lt (place : IsPlace rows row column) {later : Nat} (below : row < later) :
    placeOffset rows row column < rowOffset rows later := by
  obtain ⟨before, after, found, rfl⟩ := place
  have next := rowOffset_succ found
  have mono : rowOffset rows (row + 1) ≤ rowOffset rows later := rowOffset_mono rows below
  rw [String.utf8ByteSize_append] at next
  rw [placeOffset]
  omega

/-- A later place has more bytes before it. -/
theorem offset_le (place : IsPlace rows row column) {otherRow otherColumn : Nat}
    (before : row < otherRow ∨ (row = otherRow ∧ column ≤ otherColumn)) :
    placeOffset rows row column ≤ placeOffset rows otherRow otherColumn := by
  rcases before with above | ⟨same, columns⟩
  · exact Nat.le_trans (Nat.le_of_lt (place.offset_lt above)) (Nat.le_add_right _ _)
  · rw [same]
    exact Nat.add_le_add_left columns _

end IsPlace

section Cut

variable {rows : List String} {row : Nat} {before after : String}

/-- The bytes around a place. -/
theorem fedBytes_place (found : rows[row]? = some (before ++ after)) :
    fedBytes rows =
      (fedBytes (rows.take row) ++ lineFeed :: bytes before) ++
        (bytes after ++ fedBytes (rows.drop (row + 1))) := by
  obtain ⟨inside, text⟩ := List.getElem?_eq_some_iff.mp found
  calc fedBytes rows = fedBytes (rows.take row ++ rows.drop row) := by
        rw [List.take_append_drop]
    _ = _ := by
        rw [List.drop_eq_getElem_cons inside, text]
        simp

theorem length_before_place (rows : List String) (row : Nat) (before : String) :
    (fedBytes (rows.take row) ++ lineFeed :: bytes before).length =
      placeOffset rows row before.utf8ByteSize + 1 := by
  rw [placeOffset, rowOffset_eq]
  simp
  omega

theorem take_place (found : rows[row]? = some (before ++ after)) :
    (fedBytes rows).take (placeOffset rows row before.utf8ByteSize + 1) =
      fedBytes (rows.take row) ++ lineFeed :: bytes before := by
  rw [fedBytes_place found, List.take_left' (length_before_place rows row before)]

theorem drop_place (found : rows[row]? = some (before ++ after)) :
    (fedBytes rows).drop (placeOffset rows row before.utf8ByteSize + 1) =
      bytes after ++ fedBytes (rows.drop (row + 1)) := by
  rw [fedBytes_place found, List.drop_left' (length_before_place rows row before)]

/-- The bytes from an earlier row to a place. -/
theorem extract_to_place (found : rows[row]? = some (before ++ after)) {above : Nat}
    (isAbove : above ≤ row) :
    (fedBytes rows).extract (rowOffset rows above)
        (placeOffset rows row before.utf8ByteSize + 1) =
      fedBytes ((rows.take row).drop above) ++ lineFeed :: bytes before := by
  have shorter : rowOffset rows above ≤ (fedBytes (rows.take row)).length := by
    rw [← rowOffset_eq]
    exact rowOffset_mono rows isAbove
  rw [List.extract_eq_take_drop, ← List.drop_take, take_place found,
    List.drop_append_of_le_length shorter, drop_rowOffset rows isAbove]

/-- The bytes from a place to the next row. -/
theorem extract_from_place (found : rows[row]? = some (before ++ after)) :
    (fedBytes rows).extract (placeOffset rows row before.utf8ByteSize + 1)
        (rowOffset rows (row + 1)) = bytes after := by
  have size : rowOffset rows (row + 1) - (placeOffset rows row before.utf8ByteSize + 1) =
      (bytes after).length := by
    rw [rowOffset_succ found, placeOffset, String.utf8ByteSize_append, length_bytes]
    omega
  rw [List.extract_eq_take_drop, drop_place found, size, List.take_left]

end Cut

/-! ## Columns -/

theorem splitAtByte?_append (before after : List Char) :
    splitAtByte? (String.ofList before).utf8ByteSize (before ++ after) = some (before, after) := by
  induction before with
  | nil => simp [splitAtByte?]
  | cons character rest inductionHypothesis =>
      have size : (String.ofList (character :: rest)).utf8ByteSize =
          character.utf8Size + (String.ofList rest).utf8ByteSize := by
        rw [String.ofList_cons, String.utf8ByteSize_append, String.utf8ByteSize_singleton]
      have positive := character.utf8Size_pos
      obtain ⟨offset, isSucc⟩ : ∃ offset, character.utf8Size + (String.ofList rest).utf8ByteSize =
          offset + 1 := ⟨_, (Nat.succ_pred_eq_of_pos (by omega)).symm⟩
      have left : offset + 1 - character.utf8Size = (String.ofList rest).utf8ByteSize := by omega
      rw [size, isSucc, List.cons_append, splitAtByte?, if_pos (by omega), left,
        inductionHypothesis]

theorem splitAtByte?_toList (before after : String) :
    splitAtByte? before.utf8ByteSize (before ++ after).toList =
      some (before.toList, after.toList) := by
  rw [String.toList_append]
  simpa using splitAtByte?_append before.toList after.toList

end CodeIndex.Text

namespace CodeIndex

theorem beforeColumn_append (before after : String) :
    beforeColumn (before ++ after) before.utf8ByteSize = before := by
  simp only [beforeColumn, Text.splitAtByte?_toList, String.ofList_toList]

theorem fromColumn_append (before after : String) :
    fromColumn (before ++ after) before.utf8ByteSize = after := by
  simp only [fromColumn, Text.splitAtByte?_toList, String.ofList_toList]

end CodeIndex
