import CodeIndex.Source.Grammar.Function

/-!
Contract: classes and their members.

Owns:
- `classExpression`, `classDeclaration`: a class as a value and as a statement;
- the members: methods, signatures, fields, index signatures and static blocks.

A field keeps its decorators. A method keeps them where types may not be
written and leaves them to the class body where they may.
-/

set_option autoImplicit false

namespace CodeIndex.Source.Reader

private def classModifiers : List String :=
  ["public", "private", "protected", "static", "override", "readonly", "abstract", "declare",
    "accessor", "async", "get", "set"]

private def plainClassModifiers : List String :=
  ["static", "async", "get", "set"]

/-- The two words `static get` at the end of a line, which are read as one where types may not
be written. -/
private def staticGetLine : Reader (List Tree) := do
  let start ← current
  let _ ← word "static"
  let get_ ← word "get"
  let place ← current
  require place.afterLineEnd
  return [⟨none, .token, ⟨start.span.start, get_.span.stop⟩, "static get", []⟩]

private def qualifiers : Reader (List Tree) := do
  if (← get).dialect.types then
    modifiers classModifiers
  else
    match ← attempt? staticGetLine with
    | some words => return words
    | none => modifiers plainClassModifiers

/-- A key between brackets with a colon, for all keys of a kind. -/
private def classIndexSignature (grammar : Grammar) : Reader (List Tree) := do
  let _ ← mark "["
  let name ← anyWord .other
  let _ ← mark ":"
  let keys ← grammar.typeExpression
  let _ ← mark "]"
  let value ← when? (← atMark ":") (annotatedType grammar)
  return name :: keys :: value.toList

private def atClassIndexSignature : Reader Bool :=
  lookAhead do
    let _ ← mark "["
    let _ ← anyWord .other
    atMark ":"

private def fieldEnd : Reader Unit := do
  if (← get).dialect.types && (← atMark ",") then
    let _ ← advance
  else
    endStatement

/-- A field after its name. -/
private def field (grammar : Grammar) (start : Token) (before : List Tree) (name : Tree) :
    Reader Tree := do
  let typed := (← get).dialect.types
  let _ ← when? typed (markOf? ["?", "!"])
  let annotated ← when? (typed && (← atMark ":")) (annotatedType grammar)
  let value ← when? (← mark? "=") grammar.assignment
  let named := name.inRole (if typed then .name else .property)
  let tree ← finish start .fieldDefinition
    (before ++ [named] ++ (annotated.map (·.inRole .annotatedType)).toList ++
      (value.map (·.inRole .value)).toList)
  fieldEnd
  return tree

/-- A method after its name: with a body, abstract, or only declared. -/
private def method (grammar : Grammar) (start : Token) (before : List Tree) (name : Tree) :
    Reader Tree := do
  let head ← signature grammar
  let parts := before ++ [name.inRole .name] ++ head
  if ← atMark "\x7b" then
    let body ← block grammar
    finish start .methodDefinition (parts ++ [body.inRole .body])
  else
    require (← get).dialect.types
    let isAbstract := before.any fun word => word.kind == .token && word.text == "abstract"
    let kind := if isAbstract then .abstractMethodSignature else .methodSignature
    let tree ← finish start kind parts
    fieldEnd
    return tree

/-- One member of a class. Decorators that stay outside a method come before it. -/
private def member (grammar : Grammar) : Reader (List Tree) := do
  let next ← following
  if (← atWord "static") && next.isMark "\x7b" then
    return [← node .other do
      let _ ← advance
      return [← block grammar]]
  let outer ← current
  let decorators ← many (decorator grammar)
  let inner ← current
  let words ← qualifiers
  if (← get).dialect.types && (← atClassIndexSignature) then
    let parts ← classIndexSignature grammar
    let tree ← finish inner .other (words ++ parts)
    fieldEnd
    return decorators ++ [tree]
  let _ ← mark? "*"
  let name ← memberName grammar
  let called ← lookAhead do
    let _ ← mark? "?"
    return (← atMark "(") || ((← get).dialect.types && (← atMark "<"))
  if called then
    let _ ← mark? "?"
    if (← get).dialect.types then
      return decorators ++ [← method grammar inner words name]
    else
      return [← method grammar outer (decorators ++ words) name]
  else
    return [← field grammar outer (decorators ++ words) name]

/-- The members of a class, between braces. -/
private def classBody (grammar : Grammar) : Reader Tree :=
  node .classBody do
    let _ ← mark "\x7b"
    let members ← many do
      if ← mark? ";" then
        return []
      else
        member grammar
    let _ ← mark "\x7d"
    return members.flatten

/-- What a class extends and implements. -/
private def heritage (grammar : Grammar) : Reader (List Tree) := do
  let extended ←
    if ← word? "extends" then
      let bases ← commaList1 do
        let base ← grammar.applied
        let types ← when? ((← get).dialect.types && (← atMark "<")) (typeArguments grammar)
        return base :: types.toList
      pure bases.flatten
    else pure []
  let implemented ←
    if (← get).dialect.types && (← atWord "implements") then
      let _ ← advance
      commaList1 grammar.typeExpression
    else pure []
  return extended ++ implemented

/-- A class from its keyword on. -/
private def classTail (grammar : Grammar) (name : Reader (Option Tree)) : Reader (List Tree) := do
  let _ ← word "class"
  let named ← name
  let generic ←
    when? ((← get).dialect.types && (← atMark "<")) (typeParameters grammar)
  let bases ← heritage grammar
  let body ← classBody grammar
  return (named.map (·.inRole .name)).toList ++ generic.toList ++ bases ++ [body.inRole .body]

/-- Words after `class` that are no name. -/
private def heritageWords : List String :=
  ["extends", "implements"]

/-- A class as a value; its name may be missing. -/
def classExpression (grammar : Grammar) : Reader Tree := do
  let start ← current
  let decorators ← many (decorator grammar)
  let name := do
    let token ← current
    when? (token.kind = .word && !heritageWords.contains token.text)
      (anyWord .identifier)
  finish start .other (decorators ++ (← classTail grammar name))

/-- A class as a statement, from its decorators on. -/
def classDeclaration (grammar : Grammar) : Reader Tree := do
  let start ← current
  let decorators ← many (decorator grammar)
  let abstracted ← if (← get).dialect.types then word? "abstract" else pure false
  let parts ← classTail grammar do
    let token ← current
    require (token.kind = .word && !heritageWords.contains token.text)
    some <$> anyWord .other
  finish start (if abstracted then .abstractClassDeclaration else .classDeclaration)
    (decorators ++ parts)

end CodeIndex.Source.Reader
