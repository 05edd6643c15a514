import CodeIndex.Record.Import
import CodeIndex.Source.Character
import CodeIndex.Source.Tree
import CodeIndex.Specifier

/-!
Contract: the import statements of a file.

Owns:
- `unquoted`: the text between quotes;
- `ImportBinding`, `bindingsOf`: what a statement binds;
- `importOf?`, `importsOf`.
-/

set_option autoImplicit false

namespace CodeIndex.Extract

open CodeIndex.Source

/-- The text of a node without quotes at its ends. -/
def unquoted (node : Tree) : String :=
  let isQuote := fun character =>
    character == Character.doubleQuote || character == Character.singleQuote ||
      character == Character.backquote
  String.ofList
    (Text.trimEndWhile isQuote (Text.trimStartWhile isQuote node.text.toList))

/-- What an import statement binds. -/
inductive ImportBinding where
  /-- A default, or all exports under one name. -/
  | whole
  /-- One export by its name, under another local name or not. -/
  | named (exported : String) (localName : Option String) (typeOnly : Bool)
  deriving DecidableEq, Repr

/-- The binding of one specifier between braces. -/
def specifierBinding? (specifier : Tree) : Option ImportBinding :=
  match specifier.kind with
  | .importSpecifier =>
      (specifier.childText? .name).map fun name =>
        .named name (specifier.childText? .alias) (specifier.hasToken "type")
  | _ => none

/-- The bindings of one part of an import clause. -/
def clauseBindings (part : Tree) : List ImportBinding :=
  match part.kind with
  | .identifier | .namespaceImport => [.whole]
  | .namedImports => part.namedChildren.filterMap specifierBinding?
  | _ => []

/-- The bindings of a statement, from left to right. -/
def bindingsOf (statement : Tree) : List ImportBinding :=
  statement.namedChildren.flatMap fun child =>
    match child.kind with
    | .importClause => child.namedChildren.flatMap clauseBindings
    | .importRequireClause => [.whole]
    | _ => []

/-- The module that a statement names, directly or in a `require`. -/
def importSource? (statement : Tree) : Option String :=
  match statement.child? .source with
  | some source => some (unquoted source)
  | none =>
      statement.namedChildren.findSome? fun child =>
        match child.kind with
        | .importRequireClause => (child.child? .source).map unquoted
        | _ => none

/-- Adds a name unless it is there already. -/
def addName (names : List String) (name : String) : List String :=
  if names.contains name then names else names ++ [name]

/-- The names imported by bindings, each once; a whole module comes last. -/
def importedNames (bindings : List ImportBinding) : List String :=
  let named := bindings.filterMap fun
    | .named exported _ _ => some exported
    | .whole => none
  named.foldl addName [] ++ (if bindings.contains .whole then [wildcard] else [])

/-- Exported names by local name, where the two differ in writing; the last binding of a local
name counts. -/
def importAliases (bindings : List ImportBinding) : Std.ExtTreeMap String String :=
  bindings.foldl
    (fun aliases binding =>
      match binding with
      | .named exported (some localName) _ => aliases.insert localName exported
      | _ => aliases)
    ∅

/-- Whether bindings are of named types only, and there is one. -/
def bindsTypesOnly (bindings : List ImportBinding) : Bool :=
  !bindings.isEmpty && bindings.all fun
    | .named _ _ typeOnly => typeOnly
    | .whole => false

/-- The import that bindings from a module make. -/
def importOfBindings (source : String) (typeOnly : Bool) (line : UInt32)
    (bindings : List ImportBinding) : Import :=
  { source := Specifier.normalize source
    names := importedNames bindings
    typeOnly := typeOnly || bindsTypesOnly bindings
    line := line
    aliases := importAliases bindings }

/-- The import of a statement, if it names a module. -/
def importOf? (statement : Tree) : Option Import :=
  match statement.kind with
  | .importStatement =>
      (importSource? statement).map fun source =>
        importOfBindings source (statement.hasToken "type") statement.startLine
          (bindingsOf statement)
  | _ => none

/-- The imports at the top level of a file. -/
def importsOf (root : Tree) : List Import :=
  root.namedChildren.filterMap importOf?

end CodeIndex.Extract
