import CodeIndex.Graph.Link

/-!
Contract: files put into the graph and taken out.

Owns:
- `Graph.dependents`: the files whose calls may lead elsewhere when a file changes;
- `Graph.teardown`, `Graph.insert`: everything of a file taken out or put in, without links;
- `Graph.update`, `Graph.remove`: the same with all links kept right.
-/

set_option autoImplicit false

namespace CodeIndex.Graph

/-- The names of the definitions of a file. -/
def namesIn (graph : Graph) (path : String) : List String :=
  (graph.keysIn path).filterMap fun key => (graph.definitions[key]?).map (·.name)

/-- The files that call a name which a file defines, or import the file. -/
def dependents (graph : Graph) (path : String) : Std.ExtTreeSet String :=
  Std.ExtTreeSet.ofList
    ((graph.calledNames.collect (graph.namesIn path)).toList ++
      (graph.importers.collect (Specifier.fileStems path)).toList)

/-- The stems that a file's imports and passed-on exports lead to. -/
def importedStems (path : String) (specifiers : List String) : List String :=
  specifiers.filterMap (Specifier.stem? path)

/-- Takes out the edges to a definition. -/
def unlinkIncoming (graph : Graph) (callee : String) : Graph :=
  { graph with
    callers := graph.callers.erase callee
    callees :=
      (graph.callers.values callee).toList.foldl
        (fun callees caller => callees.drop caller callee) graph.callees }

/-- Takes out a definition from the look-ups by key and by name. -/
def dropDefinition (graph : Graph) (key : String) : Graph :=
  match graph.definitions[key]? with
  | some definition =>
      { graph with
        definitions := graph.definitions.erase key
        byName := graph.byName.drop definition.name key }
  | none => graph

/-- Takes out the calls of a definition in a file. -/
def dropCalls (path : String) (graph : Graph) (key : String) : Graph :=
  { graph with
    rawCalls := graph.rawCalls.erase key
    calledNames :=
      (graph.rawCalls.getD key []).foldl (fun names name => names.drop name path)
        graph.calledNames }

/-- Takes out one definition of a file with its edges. -/
def teardownKey (path : String) (graph : Graph) (key : String) : Graph :=
  dropCalls path (((graph.unlinkOutgoing key).unlinkIncoming key).dropDefinition key) key

/-- Takes out everything that is known of a file. -/
def teardown (graph : Graph) (path : String) : Graph :=
  let bare := (graph.keysIn path).foldl (teardownKey path) graph
  let specifiers :=
    (bare.imports.getD path []).map (·.source) ++
      (bare.exports.getD path []).filterMap (·.source)
  { bare with
    byFile := bare.byFile.erase path
    imports := bare.imports.erase path
    exports := bare.exports.erase path
    importers :=
      (importedStems path specifiers).foldl (fun importers stem => importers.drop stem path)
        bare.importers
    filesByStem :=
      (Specifier.fileStems path).foldl (fun files stem => files.drop stem path)
        bare.filesByStem }

/-- Names added to a list unless they are in it. -/
def addNames (names more : List String) : List String :=
  more.foldl (fun known name => if known.contains name then known else known ++ [name]) names

/-- Notes the names that a file calls. -/
def noteCalls (graph : Graph) (path : String) (names : List String) : Graph :=
  { graph with
    calledNames := names.foldl (fun known name => known.add name path) graph.calledNames }

/-- Puts in the definition of a symbol or a member. A name that is declared again adds its calls to
the first declaration. -/
def insertSymbol (path : String) (graph : Graph) (entry : Symbol × Option Symbol) : Graph :=
  let (symbol, parent) := entry
  let key := Definition.keyOf path symbol parent
  let noted := graph.noteCalls path symbol.calls
  if noted.definitions.contains key then
    { noted with
      rawCalls := noted.rawCalls.insert key (addNames (noted.rawCalls.getD key []) symbol.calls) }
  else
    { noted with
      definitions := noted.definitions.insert key (Definition.ofSymbol path symbol parent)
      byName := noted.byName.add symbol.name key
      rawCalls :=
        if symbol.calls.isEmpty then noted.rawCalls else noted.rawCalls.insert key symbol.calls
      byFile := noted.byFile.insert path (noted.keysIn path ++ [key]) }

/-- Symbols and their members, each with its owner, in order of declaration. -/
def declarations (symbols : List Symbol) : List (Symbol × Option Symbol) :=
  symbols.flatMap fun symbol =>
    (symbol, none) :: symbol.methods.map fun method => (method, some symbol)

/-- Puts in everything of a record, without links. -/
def insert (graph : Graph) (record : Record) : Graph :=
  let path := record.path
  let started := { graph with byFile := graph.byFile.insert path [] }
  let defined := (declarations record.symbols).foldl (insertSymbol path) started
  { defined with
    imports := defined.imports.insert path record.imports
    exports := defined.exports.insert path record.exports
    importers :=
      (importedStems path record.specifiers).foldl (fun importers stem => importers.add stem path)
        defined.importers
    filesByStem :=
      (Specifier.fileStems path).foldl (fun files stem => files.add stem path)
        defined.filesByStem }

/-- Makes the edges from several files anew. -/
def relinkFiles (graph : Graph) (paths : List String) : Graph :=
  paths.foldl relinkFile graph

/-- Replaces everything of a record's file. -/
def update (graph : Graph) (record : Record) : Graph :=
  let path := record.path
  let inserted := (graph.teardown path).insert record
  let affected :=
    (Std.ExtTreeSet.ofList
      ((graph.dependents path).toList ++ (inserted.dependents path).toList)).erase path
  (inserted.linkFile path).relinkFiles affected.toList

/-- Takes out a file. -/
def remove (graph : Graph) (path : String) : Graph :=
  if graph.containsFile path then
    (graph.teardown path).relinkFiles ((graph.dependents path).erase path).toList
  else
    graph

end CodeIndex.Graph
