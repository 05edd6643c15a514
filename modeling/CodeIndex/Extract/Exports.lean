import CodeIndex.Extract.Imports
import CodeIndex.Extract.Symbols
import CodeIndex.Record.Export

/-!
Contract: the export statements of a file.

Owns:
- `declaredNames`: the names of an exported declaration;
- `exportPairs`: the pairs of an export clause;
- `exportsOf`: all exports of a file;
- `markExported`: the symbols that an export names from elsewhere.
-/

set_option autoImplicit false

namespace CodeIndex.Extract

open CodeIndex.Source

/-- The plain name of a declarator. -/
def declaratorName? (declarator : Tree) : Option String :=
  match declarator.kind, declarator.child? .name with
  | .variableDeclarator, some name => if name.kind == .identifier then some name.text else none
  | _, _ => none

mutual

/-- The names that a declaration introduces. -/
def declaredNames : Tree → List String
  | ⟨role, kind, span, text, children⟩ =>
      match kind with
      | .lexicalDeclaration | .variableDeclaration =>
          (children.filter Tree.isNamed).filterMap declaratorName?
      | .ambientDeclaration => declaredNamesOfAll children
      | _ => (Tree.childText? ⟨role, kind, span, text, children⟩ .name).toList

/-- The names that declarations introduce. -/
def declaredNamesOfAll : List Tree → List String
  | [] => []
  | child :: rest =>
      (if child.isNamed then declaredNames child else []) ++ declaredNamesOfAll rest

end

/-- Local and exported name of each specifier of a clause. -/
def exportPairs (clause : Tree) : List (String × String) :=
  clause.namedChildren.filterMap fun specifier =>
    match specifier.kind, specifier.child? .name with
    | .exportSpecifier, some name =>
        match specifier.child? .alias with
        | some exported => some (unquoted name, unquoted exported)
        | none => some (unquoted name, unquoted name)
    | _, _ => none

/-- The last named child of a kind. -/
private def lastOfKind? (statement : Tree) (kind : Kind) : Option Tree :=
  (statement.namedChildren.filter fun child => child.kind == kind).getLast?

/-- The kind of the first symbol with a name. -/
def symbolKind? (symbols : List Symbol) (name : String) : Option SymbolKind :=
  (symbols.find? fun symbol => symbol.name == name).map (·.kind)

/-- The exports of a declaration. -/
def declarationExports (symbols : List Symbol) (statement declared : Tree) : List Export :=
  let line := statement.startLine
  if statement.hasToken "default" then
    match declaredNames declared with
    | [] => [{ name := defaultName, kind := .default, line := line }]
    | names => names.map fun name => { name := name, kind := .default, line := line }
  else
    (declaredNames declared).map fun name =>
      { name := name
        kind :=
          match symbolKind? symbols name with
          | some kind => .ofSymbolKind kind
          | none => .binding
        line := line }

/-- The name under which a statement passes on a whole module. -/
def namespaceName (statement : Tree) : String :=
  match (lastOfKind? statement .namespaceExport).bind (·.namedChildren.head?) with
  | some name => unquoted name
  | none => wildcard

/-- The exports that a statement passes on from another module. -/
def passedOnExports (statement : Tree) (source : String) : List Export :=
  let entry := fun name =>
    { name := name, kind := .reexport, line := statement.startLine, source := some source : Export }
  match lastOfKind? statement .exportClause with
  | some clause => (exportPairs clause).map fun pair => entry pair.2
  | none => [entry (namespaceName statement)]

/-- The export of a local name: a symbol's, or an import passed on. -/
def localExport (symbols : List Symbol) (imports : List Import) (line : UInt32)
    (localName exported : String) : Export :=
  match symbolKind? symbols localName with
  | some kind =>
      { name := exported
        kind := if exported == defaultName then .default else .ofSymbolKind kind
        line := line }
  | none =>
      { name := exported
        kind := .reexport
        line := line
        source :=
          (imports.find? fun statement => (statement.importedName? localName).isSome).map
            (·.source) }

/-- The name that a default expression has: an identifier's, or that of a named function or
class. -/
def defaultValueName? (statement : Tree) : Option String :=
  (statement.child? .value).bind fun value =>
    if value.kind == .identifier then some value.text else value.childText? .name

/-- The exports of one statement. -/
def statementExports (symbols : List Symbol) (imports : List Import) (statement : Tree) :
    List Export :=
  match statement.child? .declaration with
  | some declared => declarationExports symbols statement declared
  | none =>
      match statement.child? .source with
      | some source => passedOnExports statement (Specifier.normalize (unquoted source))
      | none =>
          match lastOfKind? statement .exportClause with
          | some clause =>
              (exportPairs clause).map fun pair =>
                localExport symbols imports statement.startLine pair.1 pair.2
          | none =>
              if statement.hasToken "default" then
                [{ name := (defaultValueName? statement).getD defaultName
                   kind := .default
                   line := statement.startLine }]
              else
                []

/-- The local names that one statement exports without declaring them. -/
def exportedLocals (statement : Tree) : List String :=
  if (statement.child? .declaration).isSome || (statement.child? .source).isSome then
    []
  else
    match lastOfKind? statement .exportClause with
    | some clause => (exportPairs clause).map (·.1)
    | none =>
        if statement.hasToken "default" then (defaultValueName? statement).toList else []

/-- The export statements at the top level of a file. -/
private def exportStatements (root : Tree) : List Tree :=
  root.namedChildren.filter fun statement => statement.kind == .exportStatement

/-- The exports of a file. -/
def exportsOf (symbols : List Symbol) (imports : List Import) (root : Tree) : List Export :=
  (exportStatements root).flatMap (statementExports symbols imports)

/-- Marks the first symbol with a name as exported. -/
def markFirst (name : String) : List Symbol → List Symbol
  | [] => []
  | symbol :: rest =>
      if symbol.name == name then
        symbol.mark Flags.exported :: rest
      else
        symbol :: markFirst name rest

/-- Marks the symbols that the export statements of a file name. -/
def markExported (root : Tree) (symbols : List Symbol) : List Symbol :=
  ((exportStatements root).flatMap exportedLocals).foldl
    (fun marked name => markFirst name marked) symbols

end CodeIndex.Extract
