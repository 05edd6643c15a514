import CodeIndex.Source.Grammar.Class

/-!
Contract: declarations.

Owns:
- `bindings`: names bound by `var`, `let` and `const`;
- `interface_`, `typeAlias`, `enumeration`, `namespace_`: declarations of types and groups;
- `ambient`: what is declared to exist elsewhere;
- `declaration?`: the declaration that starts here, if one does.
-/

set_option autoImplicit false

namespace CodeIndex.Source.Reader

/-- One bound name or shape with its type and value. -/
private def declarator (grammar : Grammar) : Reader Tree := do
  let start ← current
  let typed := (← get).dialect.types
  let target ←
    if (← current).kind = .word then anyWord .identifier else grammar.pattern
  let _ ← when? typed (mark? "!")
  let annotated ← when? (typed && (← atMark ":")) (annotatedType grammar)
  let value ← when? (← mark? "=") grammar.assignment
  finish start .variableDeclarator
    ([target.inRole .name] ++ (annotated.map (·.inRole .annotatedType)).toList ++
      (value.map (·.inRole .value)).toList)

/-- Bound names, without the end of the statement. -/
def variableList (grammar : Grammar) : Reader Tree := do
  let start ← current
  let isVar := start.isWord "var"
  require (isVar || start.isWord "let" || start.isWord "const")
  let _ ← advance
  let items ← commaList1 (declarator grammar)
  finish start (if isVar then .variableDeclaration else .lexicalDeclaration) items

/-- Bound names as a statement. -/
def bindings (grammar : Grammar) : Reader Tree := do
  let start ← current
  let list ← variableList grammar
  endStatement
  finish start list.kind list.children

/-- A set of members by name. -/
def interface_ (grammar : Grammar) : Reader Tree :=
  node .interfaceDeclaration do
    let _ ← word "interface"
    let name ← anyWord .other
    let generic ← when? (← atMark "<") (typeParameters grammar)
    let bases ← if ← word? "extends" then commaList1 grammar.typeExpression else pure []
    let body ← objectMembers grammar .interfaceBody
    return name.inRole .name :: generic.toList ++ bases ++ [body.inRole .body]

/-- A name for a type. -/
def typeAlias (grammar : Grammar) : Reader Tree :=
  node .typeAliasDeclaration do
    let _ ← word "type"
    let name ← anyWord .other
    let generic ← when? (← atMark "<") (typeParameters grammar)
    let _ ← mark "="
    let value ← grammar.typeExpression
    endStatement
    return name.inRole .name :: generic.toList ++ [value]

/-- A list of named constants. -/
def enumeration (grammar : Grammar) : Reader Tree :=
  node .enumDeclaration do
    let _ ← word? "const"
    let _ ← word "enum"
    let name ← anyWord .identifier
    let _ ← mark "\x7b"
    let members ← commaList do
      let member ← memberName grammar
      let value ← when? (← mark? "=") grammar.assignment
      return member :: value.toList
    let _ ← mark "\x7d"
    return name.inRole .name :: members.flatten

/-- A named group of statements. -/
def namespace_ (grammar : Grammar) : Reader Tree :=
  node .other do
    require (← wordOf? ["namespace", "module"])
    let name ← if (← current).kind = .string then quoted else qualifiedName
    let body ← when? (← atMark "\x7b") (block grammar)
    if body.isNone then
      endStatement
    return name.inRole .name :: (body.map (·.inRole .body)).toList

/-- Another name for a member of a group. -/
def importAlias : Reader Tree :=
  node .other do
    let _ ← word "import"
    let name ← anyWord .identifier
    let _ ← mark "="
    let target ← qualifiedName
    endStatement
    return [name, target]

/-- Words that make an expression of the word before them. -/
private def operatorWords : List String :=
  ["in", "instanceof", "as"]

/-- The type or group declaration that starts here, if one does. Its first word could also be a
plain name, so the words after it decide. A word that could end a statement must be followed on its
line, unless `export` stands before it. -/
private def typedDeclaration? (grammar : Grammar) (exported : Bool) : Reader (Option Tree) := do
  let token ← current
  let next ← following
  let joined := exported || !next.afterLineEnd
  let named := next.kind = .word && joined
  if !(← get).dialect.types || token.kind != .word then
    return none
  match token.text with
  | "interface" => when? (next.kind = .word) (interface_ grammar)
  | "type" => when? (named && !operatorWords.contains next.text) (typeAlias grammar)
  | "enum" => when? (next.kind = .word) (enumeration grammar)
  | "const" => when? (next.isWord "enum") (enumeration grammar)
  | "namespace" => when? (named && !operatorWords.contains next.text) (namespace_ grammar)
  | "module" =>
      when? ((named && !operatorWords.contains next.text) ||
        (next.kind = .string && joined)) (namespace_ grammar)
  | "abstract" => when? (next.isWord "class") (classDeclaration grammar)
  | _ => return none

/-- Words that may begin a binding after `let`. -/
private def startsBinding (next : Token) : Bool :=
  next.isMark "\x7b" || next.isMark "[" ||
    (next.kind == .word && !next.isWord "in" && !next.isWord "instanceof")

/-- What is declared to exist elsewhere. -/
private def ambient (grammar : Grammar) (inner : Reader (Option Tree)) : Reader Tree :=
  node .ambientDeclaration do
    let _ ← word "declare"
    if ← word? "global" then
      return [← block grammar]
    match ← inner with
    | some tree => return [tree]
    | none => failure

private def startsAmbient (next : Token) : Bool :=
  next.kind == .word &&
    ["function", "class", "const", "let", "var", "enum", "interface", "type", "namespace", "module",
      "global", "abstract", "async", "import"].contains next.text

private def plainDeclaration? (grammar : Grammar) (exported : Bool) : Reader (Option Tree) := do
  let token ← current
  let next ← following
  match ← typedDeclaration? grammar exported with
  | some tree => return some tree
  | none =>
      if (← atFunction) || (exported && token.isWord "async" && next.isWord "function") then
        some <$> functionDeclaration grammar
      else if token.isWord "class" || token.isMark "@" then
        some <$> classDeclaration grammar
      else if token.isWord "var" || token.isWord "const" ||
          (token.isWord "let" && startsBinding next) then
        some <$> bindings grammar
      else
        return none

/-- The declaration that starts here, if one does. -/
def declaration? (grammar : Grammar) (exported : Bool) : Reader (Option Tree) := do
  let next ← following
  if (← get).dialect.types && (← atWord "declare") && startsAmbient next &&
      (exported || !next.afterLineEnd) then
    some <$> ambient grammar (plainDeclaration? grammar true)
  else
    plainDeclaration? grammar exported

end CodeIndex.Source.Reader
