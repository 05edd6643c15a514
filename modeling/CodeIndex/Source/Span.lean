/-!
Contract: places in a source text and the stretches between them.

Owns:
- `Position`: a place as a byte offset, a row and a byte column;
- `Position.step`: the place after one more character;
- `Span`: the stretch from a node's first to its last character.

Rows are counted from zero and end at a line feed only. Columns and offsets
count bytes of the text's encoding, not characters.
-/

set_option autoImplicit false

namespace CodeIndex.Source

/-- A place in a text. -/
structure Position where
  /-- Bytes before this place. -/
  offset : Nat
  /-- Line feeds before this place. -/
  row : Nat
  /-- Bytes since the last line feed. -/
  column : Nat
  deriving DecidableEq, Repr, Inhabited

namespace Position

/-- The beginning of a text. -/
def origin : Position :=
  ⟨0, 0, 0⟩

/-- The place reached by passing over one character. -/
def step (place : Position) (character : Char) : Position :=
  if character = '\n' then
    ⟨place.offset + character.utf8Size, place.row + 1, 0⟩
  else
    ⟨place.offset + character.utf8Size, place.row, place.column + character.utf8Size⟩

/-- The place reached by passing over a list of characters. -/
def walk (place : Position) (characters : List Char) : Position :=
  characters.foldl step place

/-- The number of the line this place is on, counted from one. -/
def line (place : Position) : UInt32 :=
  UInt32.ofNat place.row + 1

end Position

/-- A stretch of text, from the first character to the place after the last. -/
structure Span where
  start : Position
  stop : Position
  deriving DecidableEq, Repr, Inhabited

end CodeIndex.Source
