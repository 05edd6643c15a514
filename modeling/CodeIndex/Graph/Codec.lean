import CodeIndex.Graph.Query
import CodeIndex.Record.Codec

/-!
Contract: definitions and references as JSON.

Owns:
- `toJson` and `ofJson?` of `Definition` and `Reference`;
- `GraphStats.toJson`.

A definition without an owner has no member for it.
-/

set_option autoImplicit false

namespace CodeIndex

def GraphStats.toJson (stats : GraphStats) : Json :=
  .record
    [("files", .ofNat stats.files),
      ("symbols", .ofNat stats.symbols),
      ("callEdges", .ofNat stats.callEdges),
      ("importEdges", .ofNat stats.importEdges)]

namespace Definition

/-- The member for an owner, if there is one. -/
private def parentMember (parent : Option String) : List (String × Json) :=
  match parent with
  | some name => [("parent", .ofText name)]
  | none => []

def toJson (symbol : Definition) : Json :=
  .record (
    [("fqn", .ofText symbol.key),
      ("name", .ofText symbol.name),
      ("qualifiedName", .ofText symbol.qualifiedName),
      ("kind", .ofText symbol.kind.name),
      ("path", .ofText symbol.path),
      ("line", .ofNat symbol.line.toNat),
      ("endLine", .ofNat symbol.endLine.toNat),
      ("exported", .bool symbol.exported),
      ("signature", .ofText symbol.signature)] ++
    parentMember symbol.parent)

def ofJson? (levels : Nat) (value : Json) : Option Definition :=
  Json.within? levels
    (fun levels value =>
      match value.fields? ["fqn", "name", "qualifiedName", "kind", "path", "line", "endLine",
          "exported", "signature", "parent"] with
      | some [some key, some name, some qualifiedName, some kind, some path, some line,
            some endLine, some exported, some signature, parent] => do
          return {
            key := ← key.text?
            name := ← name.text?
            qualifiedName := ← qualifiedName.text?
            kind := ← Symbol.kindOfJson? levels kind
            path := ← path.text?
            line := ← line.uint32?
            endLine := ← endLine.uint32?
            exported := ← exported.bool?
            signature := ← signature.text?
            parent := ← Json.fieldOr? (Json.optional? Json.text?) none parent }
      | _ => none)
    value

end Definition

namespace Reference

def toJson (reference : Reference) : Json :=
  .record
    [("kind", .ofText reference.kind.name),
      ("path", .ofText reference.path),
      ("line", .ofNat reference.line.toNat)]

def ofJson? (levels : Nat) (value : Json) : Option Reference :=
  Json.within? levels
    (fun levels value =>
      match value.fields? ["kind", "path", "line"] with
      | some [some kind, some path, some line] => do
          return {
            kind := ← (kind.caseName? levels).bind ReferenceKind.ofName?
            path := ← path.text?
            line := ← line.uint32? }
      | _ => none)
    value

end Reference

end CodeIndex
