import CodeIndex.Graph.Basic
import CodeIndex.Text.Blank
import CodeIndex.Text.CaseMap

/-!
Contract: questions to the graph.

Owns:
- definitions by key, by name, by part of a name and by file;
- importers and imports of files;
- callers and callees of names;
- `Reference`: the places that name a symbol;
- `GraphStats`: how large the graph is.
-/

set_option autoImplicit false

namespace CodeIndex

/-- How a place refers to a name. -/
inductive ReferenceKind where
  /-- The definition itself. -/
  | definition
  /-- An import of the name, or of everything. -/
  | imported
  /-- An export that passes the name on. -/
  | passedOn
  deriving DecidableEq, Repr, Inhabited

namespace ReferenceKind

def name : ReferenceKind → String
  | definition => "export"
  | imported => "import"
  | passedOn => "reexport"

/-- The kind that a word stands for. -/
def ofName? : String → Option ReferenceKind
  | "export" => some definition
  | "import" => some imported
  | "reexport" => some passedOn
  | _ => none

/-- The place of a kind in the order of kinds. -/
def rank : ReferenceKind → Nat
  | definition => 0
  | imported => 1
  | passedOn => 2

end ReferenceKind

/-- A place that refers to a name. -/
structure Reference where
  kind : ReferenceKind
  path : String
  line : UInt32
  deriving DecidableEq, Repr, Inhabited

namespace Reference

/-- By path, then by line, then by kind. -/
def le (left right : Reference) : Bool :=
  if left.path = right.path then
    if left.line = right.line then left.kind.rank ≤ right.kind.rank else left.line ≤ right.line
  else
    left.path ≤ right.path

end Reference

/-- How large a graph is. -/
structure GraphStats where
  files : Nat := 0
  symbols : Nat := 0
  callEdges : Nat := 0
  importEdges : Nat := 0
  deriving DecidableEq, Repr, Inhabited

namespace Graph

/-- The definitions of keys. -/
def definitionsOf (graph : Graph) (keys : List String) : List Definition :=
  keys.filterMap fun key => graph.definitions[key]?

/-- The definitions with a bare name. -/
def named (graph : Graph) (name : String) : List Definition :=
  graph.definitionsOf (graph.byName.values name).toList

/-- The definition with a key, or all definitions with a bare name. -/
def symbol (graph : Graph) (name : String) : List Definition :=
  if name.toList.contains '#' then (graph.definitions[name]?).toList else graph.named name

/-- Whether characters occur in a row. -/
def occursIn (needle : List Char) : List Char → Bool
  | [] => needle.isEmpty
  | character :: rest => needle.isPrefixOf (character :: rest) || occursIn needle rest

/-- Exported definitions first, then exact matches, then by name and by key. -/
def matchLe (needle : String) (left right : Definition) : Bool :=
  let leftExact := decide (Text.toLower left.name = needle)
  let rightExact := decide (Text.toLower right.name = needle)
  if left.exported ≠ right.exported then left.exported
  else if leftExact ≠ rightExact then leftExact
  else if left.name ≠ right.name then left.name ≤ right.name
  else left.key ≤ right.key

/-- All definitions whose name contains a text, whatever the case, the best match first. -/
def matching (graph : Graph) (query : String) : List Definition :=
  let needle := Text.toLower (Text.trim query)
  if needle.isEmpty then
    []
  else
    (graph.definitions.values.filter fun definition =>
      occursIn needle.toList (Text.toLower definition.name).toList).mergeSort (matchLe needle)

/-- The best definitions whose name contains a text. -/
def searchSymbols (graph : Graph) (query : String) (limit : Nat) : List Definition :=
  (graph.matching query).take limit

/-- The definitions of a file. -/
def symbolsIn (graph : Graph) (path : String) : List Definition :=
  graph.definitionsOf (graph.keysIn path)

/-- The top-level definitions that a file exports. -/
def exportedIn (graph : Graph) (path : String) : List Definition :=
  (graph.symbolsIn path).filter fun definition =>
    definition.exported && definition.parent.isNone

/-- The other files that import a file or pass it on. -/
def importersOf (graph : Graph) (path : String) : List String :=
  ((graph.importers.collect (Specifier.fileStems path)).erase path).toList

def importsOf (graph : Graph) (path : String) : List Import :=
  graph.imports.getD path []

/-- The file that a relative specifier leads to. -/
def resolveImportedFile? (graph : Graph) (importer specifier : String) : Option String :=
  (Specifier.stem? importer specifier).bind fun stem =>
    (graph.filesByStem.values stem).toList.head?

/-- The definitions on the other side of the edges of a name. -/
private def neighbours (graph : Graph) (edges : Multimap) (name : String) : List Definition :=
  graph.definitionsOf (edges.collect ((graph.named name).map (·.key))).toList

/-- The callers of definitions with a name. -/
def callersOf (graph : Graph) (name : String) : List Definition :=
  graph.neighbours graph.callers name

/-- The callees of definitions with a name. -/
def calleesOf (graph : Graph) (name : String) : List Definition :=
  graph.neighbours graph.callees name

/-- The places where a name is defined. -/
def definitionReferences (graph : Graph) (name : String) : List Reference :=
  (graph.named name).map fun definition => ⟨.definition, definition.path, definition.line⟩

/-- The places where a name, or everything, is imported. -/
def importReferences (graph : Graph) (name : String) : List Reference :=
  graph.imports.toList.flatMap fun entry =>
    (entry.2.filter fun statement =>
      statement.names.any fun imported => imported == name || imported == wildcard).map
      fun statement => ⟨.imported, entry.1, statement.line⟩

/-- The places where a name is passed on by a file that does not define it. -/
def passedOnReferences (graph : Graph) (name : String) : List Reference :=
  graph.exports.toList.flatMap fun entry =>
    if graph.definitions.contains (qualifiedKey entry.1 name) then
      []
    else
      (entry.2.filter fun exported =>
        exported.kind == .reexport && exported.name == name).map
        fun exported => ⟨.passedOn, entry.1, exported.line⟩

/-- All places that refer to a name, each once. -/
def references (graph : Graph) (name : String) : List Reference :=
  let found :=
    graph.definitionReferences name ++ graph.importReferences name ++
      graph.passedOnReferences name
  (found.mergeSort Reference.le).eraseReps

def stats (graph : Graph) : GraphStats :=
  { files := graph.byFile.size
    symbols := graph.definitions.size
    callEdges := graph.callees.pairCount
    importEdges := graph.importers.pairCount }

end Graph

end CodeIndex
