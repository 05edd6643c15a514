import CodeIndex.Multimap
import CodeIndex.Record.Basic
import CodeIndex.Specifier

/-!
Contract: the symbols of all files and how they refer to each other.

Owns:
- `Definition`: a symbol as other files see it;
- `Graph`: definitions, imports, exports and calls;
- `Definition.ofSymbol`: the definition of a symbol or a member.

Does not own: how the graph is changed, linked and asked.

A definition is named by its key: the path of its file and its name, with the owner's name before
it. Symbols of one file with the same name share a definition.
-/

set_option autoImplicit false

namespace CodeIndex

/-- A symbol as other files see it. -/
structure Definition where
  key : String
  name : String
  /-- The name with the owner's before it. -/
  qualifiedName : String
  kind : SymbolKind
  path : String
  line : UInt32
  endLine : UInt32
  exported : Bool
  signature : String
  parent : Option String
  deriving DecidableEq, Repr, Inhabited

namespace Definition

/-- A name with the owner's before it. -/
def qualify (symbol : Symbol) (parent : Option Symbol) : String :=
  match parent with
  | some owner => owner.name ++ "." ++ symbol.name
  | none => symbol.name

/-- The key of a symbol or a member. -/
def keyOf (path : String) (symbol : Symbol) (parent : Option Symbol) : String :=
  qualifiedKey path (qualify symbol parent)

/-- The definition of a symbol or a member; a member is exported with its owner. -/
def ofSymbol (path : String) (symbol : Symbol) (parent : Option Symbol) : Definition :=
  { key := keyOf path symbol parent
    name := symbol.name
    qualifiedName := qualify symbol parent
    kind := symbol.kind
    path := path
    line := symbol.line
    endLine := symbol.endLine
    exported := (parent.getD symbol).isExported
    signature := symbol.signature (parent.map (·.name))
    parent := parent.map (·.name) }

end Definition

/-- Definitions, imports, exports and calls of all files. -/
structure Graph where
  /-- Definitions by key. -/
  definitions : Std.ExtTreeMap String Definition := ∅
  /-- Keys by bare name. -/
  byName : Multimap := ∅
  /-- Keys by path, in order of declaration. -/
  byFile : Std.ExtTreeMap String (List String) := ∅
  /-- Paths by the stems that lead to them. -/
  filesByStem : Multimap := ∅
  imports : Std.ExtTreeMap String (List Import) := ∅
  exports : Std.ExtTreeMap String (List Export) := ∅
  /-- Paths by the stems that they import or pass on. -/
  importers : Multimap := ∅
  /-- Called names as written, by the caller's key. -/
  rawCalls : Std.ExtTreeMap String (List String) := ∅
  /-- Paths by the names that they call. -/
  calledNames : Multimap := ∅
  /-- Keys of callees by the caller's key. -/
  callees : Multimap := ∅
  /-- Keys of callers by the callee's key. -/
  callers : Multimap := ∅
  /-- The most definitions that a name may have to be linked without an import. -/
  fallbackLimit : Nat

namespace Graph

/-- A graph without files. -/
def empty (fallbackLimit : Nat) : Graph :=
  { fallbackLimit := fallbackLimit }

def containsFile (graph : Graph) (path : String) : Bool :=
  graph.byFile.contains path

/-- The keys of a file's definitions. -/
def keysIn (graph : Graph) (path : String) : List String :=
  graph.byFile.getD path []

end Graph

end CodeIndex
