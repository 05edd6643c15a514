import CodeIndex.Record.Symbol

/-!
Contract: what a file exports.

Owns:
- `ExportKind`: the kinds of symbols, and exports that are no symbol's;
- `Export`: one exported name;
- the order of export kinds.
-/

set_option autoImplicit false

namespace CodeIndex

/-- What an export is. -/
inductive ExportKind where
  | function
  | classType
  | interfaceType
  | typeAlias
  | enumeration
  | binding
  | method
  /-- Passed on from another module. -/
  | reexport
  /-- The default of the module. -/
  | default
  deriving DecidableEq, Repr, Inhabited

namespace ExportKind

def ofSymbolKind : SymbolKind → ExportKind
  | .function => function
  | .classType => classType
  | .interfaceType => interfaceType
  | .typeAlias => typeAlias
  | .enumeration => enumeration
  | .binding => binding
  | .method => method

/-- The word for a kind. -/
def name : ExportKind → String
  | function => "function"
  | classType => "class"
  | interfaceType => "interface"
  | typeAlias => "type"
  | enumeration => "enum"
  | binding => "variable"
  | method => "method"
  | reexport => "reexport"
  | default => "default"

/-- The kind that a word stands for. -/
def ofName? : String → Option ExportKind
  | "function" => some function
  | "class" => some classType
  | "interface" => some interfaceType
  | "type" => some typeAlias
  | "enum" => some enumeration
  | "variable" => some binding
  | "method" => some method
  | "reexport" => some reexport
  | "default" => some default
  | _ => none

theorem ofName?_name (kind : ExportKind) : ofName? kind.name = some kind := by
  cases kind <;> rfl

/-- The place of a kind in the order of kinds. -/
def rank : ExportKind → Nat
  | function => 0
  | classType => 1
  | interfaceType => 2
  | typeAlias => 3
  | enumeration => 4
  | binding => 5
  | method => 6
  | reexport => 7
  | default => 8

theorem eq_of_rank_eq {left right : ExportKind} (same : left.rank = right.rank) : left = right := by
  cases left <;> cases right <;> first | rfl | cases same

end ExportKind

/-- One exported name. -/
structure Export where
  name : String
  kind : ExportKind
  line : UInt32
  /-- The module an export is passed on from. -/
  source : Option String := none
  deriving DecidableEq, Repr, Inhabited

end CodeIndex
