import CodeIndex.Source.Grammar.Declaration

/-!
Contract: the statements by which files import and export.

Owns:
- `importStatement`: imported names, defaults, namespaces and whole modules;
- `exportStatement`: exported declarations, values and clauses, and what is
  passed on from other modules.

A comment inside a namespace export is a child of it and comes before the name;
everywhere else comments leave no node.
-/

set_option autoImplicit false

namespace CodeIndex.Source.Reader

/-- The name of something a module exports: a word or a string. -/
private def exportedName : Reader Tree := do
  let token ← current
  match token.kind with
  | .word => leaf .identifier
  | .string => leaf .other
  | _ => failure

/-- The module after `from`. -/
private def fromClause : Reader Tree := do
  let _ ← word "from"
  return (← quoted).inRole .source

/-- Attributes after a module's name. -/
private def importAttributes (grammar : Grammar) : Reader Unit := do
  let next ← following
  if ((← atWord "with") || (← atWord "assert")) && next.isMark "\x7b" then
    let _ ← advance
    let _ ← grammar.assignment

/-! ## Imports -/

/-- Whether the word `type` before a specifier qualifies it. -/
private def qualifiesSpecifier : Reader Bool := do
  if !(← get).dialect.types || !((← atWord "type") || (← atWord "typeof")) then
    return false
  let next ← following
  if next.kind = .string then
    return true
  if next.kind != .word then
    return false
  if next.text != "as" then
    return true
  let third := Token.scan next.span.stop next.rest
  let fourth := Token.scan third.span.stop third.rest
  return third.kind != .word || (third.text == "as" && fourth.kind == .word)

private def specifier (kind : Kind) : Reader Tree :=
  node kind do
    let qualified ← when? (← qualifiesSpecifier) (leaf .token)
    let name ← exportedName
    let renamed ← when? (← word? "as") exportedName
    return qualified.toList ++ [name.inRole .name] ++ (renamed.map (·.inRole .alias)).toList

private def namedImports : Reader Tree :=
  node .namedImports do
    let _ ← mark "\x7b"
    let items ← commaList (specifier .importSpecifier)
    let _ ← mark "\x7d"
    return items

private def namespaceImport : Reader Tree :=
  node .namespaceImport do
    let _ ← mark "*"
    let _ ← word "as"
    return [← anyWord .identifier]

private def importClause : Reader Tree :=
  node .importClause do
    if ← atMark "*" then
      return [← namespaceImport]
    if ← atMark "\x7b" then
      return [← namedImports]
    let name ← anyWord .identifier
    if ← mark? "," then
      if ← atMark "*" then
        return [name, ← namespaceImport]
      else
        return [name, ← namedImports]
    else
      return [name]

/-- A module bound to a name by `require`. -/
private def requireClause : Reader Tree :=
  node .importRequireClause do
    let name ← anyWord .identifier
    let _ ← mark "="
    let _ ← word "require"
    let _ ← mark "("
    let source ← quoted
    let _ ← mark ")"
    return [name, source.inRole .source]

/-- Whether the word `type` after `import` qualifies the whole statement. -/
private def qualifiesImport : Reader Bool := do
  if !(← get).dialect.types || !((← atWord "type") || (← atWord "typeof")) then
    return false
  let next ← following
  if next.isMark "\x7b" || next.isMark "*" then
    return true
  if next.kind != .word then
    return false
  let third := Token.scan next.span.stop next.rest
  return next.text != "from" || third.isWord "from" || third.isMark "="

/-- An import. -/
def importStatement (grammar : Grammar) : Reader Tree := do
  let aliased ← lookAhead do
    let _ ← word "import"
    let _ ← anyWord .identifier
    let _ ← mark "="
    return !((← atWord "require") && (← following).isMark "(")
  if aliased then
    return ← importAlias
  node .importStatement do
    let _ ← word "import"
    if (← current).kind = .string then
      let source ← quoted
      importAttributes grammar
      endStatement
      return [source.inRole .source]
    let qualified ← when? (← qualifiesImport) (leaf .token)
    match ← attempt? requireClause with
    | some clause =>
        endStatement
        return qualified.toList ++ [clause]
    | none =>
        let clause ← importClause
        let source ← fromClause
        importAttributes grammar
        endStatement
        return qualified.toList ++ [clause, source]

/-! ## Exports -/

private def exportClause : Reader Tree :=
  node .exportClause do
    let _ ← mark "\x7b"
    let items ← commaList (specifier .exportSpecifier)
    let _ ← mark "\x7d"
    return items

/-- A whole module under a name. -/
private def namespaceExport : Reader Tree :=
  node .namespaceExport do
    let _ ← mark "*"
    let asWord ← word "as"
    let nameToken ← current
    let name ← exportedName
    let comments := (asWord.comments ++ nameToken.comments).map fun text =>
      (⟨none, .other, asWord.span, text, []⟩ : Tree)
    return comments ++ [name]

/-- What follows `export default`. -/
private def defaultExport (grammar : Grammar) : Reader (List Tree) := do
  let token ← current
  let anonymous ← lookAhead do
    let _ ← many (decorator grammar)
    let _ ← word? "async"
    require (← wordOf? ["function", "class"])
    let _ ← mark? "*"
    let next ← current
    return next.isMark "(" || next.isMark "<" || next.isMark "\x7b" || next.isWord "extends" ||
      next.isWord "implements"
  let declared ←
    if anonymous || token.isWord "let" || token.isWord "var" then pure none
    else declaration? grammar false
  match declared with
  | some tree => return [tree.inRole .declaration]
  | none =>
      let value ← grammar.assignment
      endStatement
      return [value.inRole .value]

/-- What follows `export` and is no declaration. -/
private def exportRest (grammar : Grammar) : Reader (List Tree) := do
  let typed := (← get).dialect.types
  if ← atWord "default" then
    let word ← leaf .token
    return word :: (← defaultExport grammar)
  if typed && (← atMark "=") then
    let _ ← advance
    let value ← grammar.expression
    endStatement
    return [value]
  if typed && (← atWord "as") then
    let _ ← advance
    let _ ← word "namespace"
    let name ← anyWord .identifier
    endStatement
    return [name]
  let next ← following
  let qualified ← when? (typed && (← atWord "type") && (next.isMark "\x7b" || next.isMark "*"))
    (leaf .token)
  if ← atMark "*" then
    let named := (← following).isWord "as"
    let clause ←
      if named then some <$> namespaceExport
      else do
        let _ ← advance
        pure none
    let source ← fromClause
    importAttributes grammar
    endStatement
    return qualified.toList ++ clause.toList ++ [source]
  else
    let clause ← exportClause
    let source ← when? (← atWord "from") fromClause
    if source.isSome then
      importAttributes grammar
    endStatement
    return qualified.toList ++ [clause] ++ source.toList

/-- An export, from its decorators on. -/
def exportStatement (grammar : Grammar) : Reader Tree :=
  node .exportStatement do
    let decorators ← many (decorator grammar)
    let _ ← word "export"
    let next ← following
    let clause := (← atWord "type") && (next.isMark "\x7b" || next.isMark "*")
    if (← get).dialect.types && (← atWord "import") then
      return decorators ++ [(← importAlias).inRole .declaration]
    let declared ← if clause then pure none else declaration? grammar true
    match declared with
    | some tree => return decorators ++ [tree.inRole .declaration]
    | none => return decorators ++ (← exportRest grammar)

end CodeIndex.Source.Reader
