import CodeIndex.Extract.Calls
import CodeIndex.Text.Blank

/-!
Contract: the symbols that a file declares.

Owns:
- parameters, return types and calls of functions;
- members of classes and interfaces;
- `symbolsOf`: the declarations at the top level, also under `export` and `declare`.
-/

set_option autoImplicit false

namespace CodeIndex.Extract

open CodeIndex.Source

/-- The text of a type, without the colon before it. -/
def typeText (annotated : Tree) : String :=
  String.ofList
    (Text.trimCharacters (Text.trimStartWhile (· == ':') annotated.text.toList))

/-- A parameter. Modifiers, decorators and defaults are left out. -/
def param? (node : Tree) : Option Param :=
  match node.kind with
  | .requiredParameter =>
      (node.child? .pattern).map fun pattern =>
        ⟨pattern.text, (node.child? .annotatedType).map typeText⟩
  | .optionalParameter =>
      (node.child? .pattern).map fun pattern =>
        ⟨pattern.text ++ "?", (node.child? .annotatedType).map typeText⟩
  | .assignmentPattern => (node.childText? .left).map fun name => ⟨name, none⟩
  | _ => some ⟨node.text, none⟩

/-- The parameters of a function; one without parentheses has a single bare parameter. -/
def paramsOf (function : Tree) : List Param :=
  match function.child? .parameters with
  | some list => list.namedChildren.filterMap param?
  | none =>
      match function.child? .parameter with
      | some parameter => [⟨parameter.text, none⟩]
      | none => []

/-- The symbol of anything with parameters and a body. Its lines are those of `extent`, which
may be more than the function itself. -/
def callableSymbol (name : String) (kind : SymbolKind) (function extent : Tree) (flags : Flags) :
    Symbol :=
  { name := name
    kind := kind
    line := extent.startLine
    endLine := extent.stopLine
    params := paramsOf function
    returnType := (function.child? .returnType).map typeText
    flags := if function.hasToken "async" then flags.union Flags.async else flags
    calls :=
      match function.child? .body with
      | some body => collectCalls body
      | none => [] }

/-- The symbol of a named declaration, without members. -/
def plainSymbol? (node : Tree) (kind : SymbolKind) (flags : Flags) : Option Symbol :=
  (node.childText? .name).map fun name =>
    { name := name
      kind := kind
      line := node.startLine
      endLine := node.stopLine
      flags := flags }

/-- The method that a member of a class declares; a field counts if its value is a function. -/
def classMember? (member : Tree) : Option Symbol :=
  let flags := if member.hasToken "static" then Flags.static else Flags.empty
  match member.kind with
  | .methodDefinition | .abstractMethodSignature =>
      (member.childText? .name).map fun name =>
        callableSymbol name .method member member flags
  | .fieldDefinition =>
      match member.child? .value, (member.childText? .name).or (member.childText? .property) with
      | some value, some name =>
          if value.kind.isFunctionValue then
            some (callableSymbol name .method value member flags)
          else
            none
      | _, _ => none
  | _ => none

def classSymbol? (node : Tree) (flags : Flags) : Option Symbol :=
  (plainSymbol? node .classType flags).map fun symbol =>
    match node.child? .body with
    | some body => { symbol with methods := body.namedChildren.filterMap classMember? }
    | none => symbol

/-- The method that a member of an interface declares. -/
def interfaceMember? (member : Tree) : Option Symbol :=
  match member.kind with
  | .methodSignature =>
      (member.childText? .name).map fun name =>
        callableSymbol name .method member member Flags.empty
  | _ => none

def interfaceSymbol? (node : Tree) (flags : Flags) : Option Symbol :=
  (plainSymbol? node .interfaceType flags).map fun symbol =>
    match node.child? .body with
    | some body =>
        if body.kind == .interfaceBody || body.kind == .objectType then
          { symbol with methods := body.namedChildren.filterMap interfaceMember? }
        else
          symbol
    | none => symbol

/-- The symbol of a variable with a plain name. Its value may make it a function. -/
def variableSymbol? (declarator : Tree) (flags : Flags) : Option Symbol :=
  match declarator.kind, declarator.child? .name with
  | .variableDeclarator, some name =>
      if name.kind == .identifier then
        let plain : Symbol :=
          { name := name.text
            kind := .binding
            line := declarator.startLine
            endLine := declarator.stopLine
            flags := flags
            returnType := (declarator.child? .annotatedType).map typeText }
        match declarator.child? .value with
        | some value =>
            if value.kind.isFunctionValue then
              some (callableSymbol name.text .function value declarator flags)
            else
              some plain
        | none => some plain
      else
        none
  | _, _ => none

/-- The name of a default export that has none of its own. -/
def defaultName : String := "default"

/-- The symbol of a function that is exported as the default; it spans the whole statement. -/
def defaultFunction? (function statement : Tree) (flags : Flags) : Option Symbol :=
  if function.kind == .functionDeclaration || function.kind == .generatorFunctionDeclaration ||
      function.kind.isFunctionValue then
    some (callableSymbol ((function.childText? .name).getD defaultName) .function function
      statement flags)
  else
    none

/-- The symbols of a declaration that wraps no other. -/
def plainDeclaration (flags : Flags) (node : Tree) : List Symbol :=
  match node.kind with
  | .functionDeclaration | .generatorFunctionDeclaration =>
      match node.childText? .name with
      | some name => [callableSymbol name .function node node flags]
      | none => []
  | .classDeclaration | .abstractClassDeclaration => (classSymbol? node flags).toList
  | .interfaceDeclaration => (interfaceSymbol? node flags).toList
  | .typeAliasDeclaration => (plainSymbol? node .typeAlias flags).toList
  | .enumDeclaration => (plainSymbol? node .enumeration flags).toList
  | .lexicalDeclaration | .variableDeclaration =>
      node.namedChildren.filterMap fun declarator => variableSymbol? declarator flags
  | _ => []

/-- The symbol of an exported default, where the exported thing declares none itself. -/
def defaultDeclaration (statement : Tree) (flags : Flags) (declared : Option (List Symbol)) :
    List Symbol :=
  match declared with
  | some [] =>
      if statement.hasToken "default" then
        ((statement.child? .declaration).bind (defaultFunction? · statement flags)).toList
      else
        []
  | some symbols => symbols
  | none =>
      if statement.hasToken "default" then
        ((statement.child? .value).bind (defaultFunction? · statement flags)).toList
      else
        []

mutual

/-- The symbols of a declaration, also behind `export` and `declare`. -/
def declaration (flags : Flags) : Tree → List Symbol
  | ⟨role, kind, span, text, children⟩ =>
      match kind with
      | .exportStatement =>
          let marked := flags.union Flags.exported
          defaultDeclaration ⟨role, kind, span, text, children⟩ marked
            (exportedDeclaration? marked children)
      | .ambientDeclaration => allDeclarations flags children
      | _ => plainDeclaration flags ⟨role, kind, span, text, children⟩

/-- The symbols of the first part that is declared by an export. -/
def exportedDeclaration? (flags : Flags) : List Tree → Option (List Symbol)
  | [] => none
  | child :: rest =>
      if child.role == some .declaration then
        some (declaration flags child)
      else
        exportedDeclaration? flags rest

/-- The symbols of all parts. -/
def allDeclarations (flags : Flags) : List Tree → List Symbol
  | [] => []
  | child :: rest =>
      (if child.isNamed then declaration flags child else []) ++ allDeclarations flags rest

end

/-- The symbols that a file declares at its top level. -/
def symbolsOf (root : Tree) : List Symbol :=
  allDeclarations Flags.empty root.children

end CodeIndex.Extract
