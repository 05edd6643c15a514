import CodeIndex.Source.Span
import CodeIndex.Text.Split

/-!
Contract: source text with function bodies collapsed.

Owns:
- `BodyRange`: the stretch of a body by rows and byte columns;
- `mergeRanges`: ranges joined where they share a row;
- `skeleton`: the text with each merged range replaced by `{ ... }`.

Does not own: where the bodies of a file are.
-/

set_option autoImplicit false

namespace CodeIndex

/-- The stretch of a body. Rows are counted from zero, columns in bytes. -/
structure BodyRange where
  startRow : Nat
  startColumn : Nat
  endRow : Nat
  endColumn : Nat
  deriving DecidableEq, Repr, Inhabited

namespace BodyRange

def ofSpan (span : Source.Span) : BodyRange :=
  ⟨span.start.row, span.start.column, span.stop.row, span.stop.column⟩

/-- Whether one place is before another or the same. -/
def placeLe (row column otherRow otherColumn : Nat) : Bool :=
  row < otherRow || (row == otherRow && column ≤ otherColumn)

/-- By start, then by end. -/
def le (left right : BodyRange) : Bool :=
  if left.startRow = right.startRow ∧ left.startColumn = right.startColumn then
    placeLe left.endRow left.endColumn right.endRow right.endColumn
  else
    placeLe left.startRow left.startColumn right.startRow right.startColumn

/-- The range that also reaches the end of another. -/
def extend (current range : BodyRange) : BodyRange :=
  if placeLe range.endRow range.endColumn current.endRow current.endColumn then
    current
  else
    { current with endRow := range.endRow, endColumn := range.endColumn }

end BodyRange

/-- Ranges in order of their start. -/
def sortRanges (ranges : List BodyRange) : List BodyRange :=
  ranges.mergeSort BodyRange.le

/-- Merges sorted ranges into the one before them, as long as they start on a row it covers. -/
def mergeInto (current : BodyRange) : List BodyRange → List BodyRange
  | [] => [current]
  | range :: rest =>
      if range.startRow ≤ current.endRow then
        mergeInto (current.extend range) rest
      else
        current :: mergeInto range rest

/-- Ranges that share a row become one. -/
def mergeRanges (ranges : List BodyRange) : List BodyRange :=
  match sortRanges ranges with
  | [] => []
  | first :: rest => mergeInto first rest

/-- What stands for a body. -/
def placeholder : String := "\x7b ... \x7d"

/-- The text before a byte column; the whole line if no character starts there. -/
def beforeColumn (line : String) (column : Nat) : String :=
  match Text.splitAtByte? column line.toList with
  | some (before, _) => String.ofList before
  | none => line

/-- The text from a byte column on; nothing if no character starts there. -/
def fromColumn (line : String) (column : Nat) : String :=
  match Text.splitAtByte? column line.toList with
  | some (_, after) => String.ofList after
  | none => ""

/-- The line that replaces the rows of a range. -/
def collapsedLine (lines : Array String) (first : String) (range : BodyRange) : String :=
  beforeColumn first range.startColumn ++ placeholder ++
    (match lines[range.endRow]? with
      | some last => fromColumn last range.endColumn
      | none => "")

/-- The lines from a row on, with the rows of each range replaced by one line. -/
def collapseFrom (lines : Array String) (row : Nat) : List BodyRange → List String
  | [] => (lines.extract row lines.size).toList
  | range :: rest =>
      match lines[range.startRow]? with
      | some first =>
          (lines.extract row range.startRow).toList ++
            collapsedLine lines first range :: collapseFrom lines (range.endRow + 1) rest
      | none => (lines.extract row lines.size).toList

/-- The text with the given bodies collapsed; what stands before and after a body on its rows is
kept. -/
def skeleton (source : String) (ranges : List BodyRange) : String :=
  Text.join "\n" (collapseFrom (Text.split '\n' source).toArray 0 (mergeRanges ranges))

end CodeIndex
