import CodeIndex.Json.Number
import CodeIndex.Record.Codec
import CodeIndex.Search.Rank

/-!
Contract: chunks and hits as JSON.

Owns:
- `Chunk.toJson`, `Hit.toJson`;
- `Hit.ofParts?`: a hit from the members of its chunk and its score.

The terms of a chunk are not written. A chunk of a whole file has no member for a kind.
-/

set_option autoImplicit false

namespace CodeIndex.Search

/-- The member for a kind, if there is one. -/
private def kindMember (kind : Option SymbolKind) : List (String × Json) :=
  match kind with
  | some kind => [("kind", .ofText kind.name)]
  | none => []

/-- A chunk without its terms. -/
def Chunk.toJson (chunk : Chunk) : Json :=
  .record (
    [("id", .ofText chunk.id),
      ("path", .ofText chunk.path),
      ("symbol", .ofText chunk.symbol)] ++
    kindMember chunk.kind ++
    [("startLine", .ofNat chunk.startLine.toNat),
      ("endLine", .ofNat chunk.endLine.toNat),
      ("preview", .ofText chunk.preview)])

def Hit.toJson (hit : Hit) : Json :=
  .record [("chunk", hit.chunk.toJson), ("score", .ofFloat hit.score)]

/-- A hit from one object with the members of its chunk and its score. -/
def Hit.ofParts? (levels : Nat) (value : Json) : Option Hit :=
  match value.fields? ["id", "path", "symbol", "kind", "startLine", "endLine", "preview",
      "score"] with
  | some [some id, some path, some symbol, kind, some startLine, some endLine, some preview,
        some score] => do
      return {
        chunk :=
          { id := ← id.text?
            path := ← path.text?
            symbol := ← symbol.text?
            kind := ← Json.fieldOr? (Json.optional? (Symbol.kindOfJson? levels)) none kind
            startLine := ← startLine.uint32?
            endLine := ← endLine.uint32?
            tokens := []
            preview := ← preview.text? }
        score := ← score.float? }
  | _ => none

end CodeIndex.Search
