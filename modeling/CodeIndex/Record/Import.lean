import Std.Data.ExtTreeMap

/-!
Contract: what a file imports.

Owns:
- `Import`: the names taken from one module by one statement;
- `Import.importedName?`: the exported name behind a local name.

Does not own: which file a module specifier leads to.
-/

set_option autoImplicit false

namespace CodeIndex

/-- The name that stands for everything a module exports. -/
def wildcard : String := "*"

/-- One import statement. -/
structure Import where
  /-- The module specifier. -/
  source : String
  /-- Imported names; a default or a namespace counts as the wildcard. -/
  names : List String
  /-- Whether only types are imported. -/
  typeOnly : Bool := false
  line : UInt32
  /-- Exported names by the local name they are bound to. -/
  aliases : Std.ExtTreeMap String String := ∅
  deriving DecidableEq, Inhabited

namespace Import

def hasWildcard (statement : Import) : Bool :=
  statement.names.contains wildcard

/-- The exported name that a local name stands for. A name that was given another local name is
not bound under its own. -/
def importedName? (statement : Import) (localName : String) : Option String :=
  match statement.aliases[localName]? with
  | some exported => some exported
  | none =>
      statement.names.find? fun name =>
        name == localName && !statement.aliases.values.contains name

end Import

end CodeIndex
