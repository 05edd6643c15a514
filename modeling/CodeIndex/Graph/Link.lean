import CodeIndex.Graph.Basic

/-!
Contract: calls linked to the definitions they lead to.

Owns:
- `Graph.resolveCall`: the definitions that a called name stands for in a file;
- `Graph.linkFile`, `Graph.relinkFile`: the edges from a file's definitions;
- `Graph.unlinkOutgoing`: a caller's edges taken out.

A name stands for definitions of the same file. If there are none, it stands for what it is bound to
by the first import that leads to a definition. If there is no such import either, it stands for all
definitions of the name, unless there are too many.
-/

set_option autoImplicit false

namespace CodeIndex.Graph

/-- The key of a top-level definition in a file, if there is one. -/
def topLevel? (graph : Graph) (path name : String) : Option String :=
  let key := qualifiedKey path name
  if graph.definitions.contains key then some key else none

/-- The exported name that an import binds a local name to. A wildcard binds every name to
itself. -/
def boundName? (statement : Import) (name : String) : Option String :=
  match statement.importedName? name with
  | some exported => some exported
  | none => if statement.hasWildcard then some name else none

/-- What one import leads a name to: the first file that defines it. -/
def resolveImport? (graph : Graph) (path name : String) (statement : Import) : Option String :=
  if Specifier.isRelative statement.source then
    match boundName? statement name, Specifier.stem? path statement.source with
    | some exported, some stem =>
        (graph.filesByStem.values stem).toList.findSome? fun file => graph.topLevel? file exported
    | _, _ => none
  else
    none

/-- What the imports of a file lead a name to. -/
def resolveThroughImports (graph : Graph) (path name : String) : List String :=
  ((graph.imports.getD path []).findSome? (graph.resolveImport? path name)).toList

/-- The keys of a name's definitions in a file. -/
def sameFile (graph : Graph) (path : String) (candidates : List String) : List String :=
  candidates.filter fun key =>
    match graph.definitions[key]? with
    | some definition => definition.path == path
    | none => false

/-- The keys that a called name stands for in a file. -/
def resolveCall (graph : Graph) (path name : String) : List String :=
  match graph.byName[name]? with
  | none => graph.resolveThroughImports path name
  | some candidates =>
      match graph.sameFile path candidates.toList with
      | [] =>
          match graph.resolveThroughImports path name with
          | [] => if candidates.size ≤ graph.fallbackLimit then candidates.toList else []
          | imported => imported
      | found => found

/-- Adds an edge to both directions. -/
def addEdge (graph : Graph) (caller callee : String) : Graph :=
  { graph with
    callees := graph.callees.add caller callee
    callers := graph.callers.add callee caller }

/-- Takes out all edges from a caller. -/
def unlinkOutgoing (graph : Graph) (caller : String) : Graph :=
  { graph with
    callees := graph.callees.erase caller
    callers :=
      (graph.callees.values caller).toList.foldl
        (fun callers callee => callers.drop callee caller) graph.callers }

/-- The keys that a caller's calls lead to. -/
def targets (graph : Graph) (path caller : String) : List String :=
  (graph.rawCalls.getD caller []).flatMap (graph.resolveCall path)

/-- Adds the edges from a caller. -/
def linkCaller (path : String) (graph : Graph) (caller : String) : Graph :=
  (graph.targets path caller).foldl (fun linked callee => linked.addEdge caller callee) graph

/-- Adds the edges from the definitions of a file. -/
def linkFile (graph : Graph) (path : String) : Graph :=
  (graph.keysIn path).foldl (linkCaller path) graph

/-- Makes the edges from the definitions of a file anew. -/
def relinkFile (graph : Graph) (path : String) : Graph :=
  ((graph.keysIn path).foldl unlinkOutgoing graph).linkFile path

end CodeIndex.Graph
