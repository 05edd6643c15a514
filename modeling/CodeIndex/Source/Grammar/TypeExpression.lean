import CodeIndex.Source.Grammar.Pattern
import CodeIndex.Source.Grammar.Template

/-!
Contract: type expressions and the members of object types.

Owns:
- `typeExpression`: types with unions, conditions, functions and literals;
- `typeParameters`, `annotatedReturn`, `signature`: the parts of a function's
  head that follow its name;
- `objectMembers`: the braced members of an object type or an interface.

Types matter to extraction by their text alone, so most type nodes are `other`;
the members of object types keep their kinds.
-/

set_option autoImplicit false

namespace CodeIndex.Source.Reader

/-- Names that a declaration is generic in. -/
def typeParameters (grammar : Grammar) : Reader Tree :=
  node .other do
    let _ ← mark "<"
    let items ← commaList do
      let _ ← many do
        let token ← current
        let next ← following
        require (token.kind = .word && ["const", "in", "out"].contains token.text)
        require (next.kind = .word && next.text != "extends")
        advance
      let name ← anyWord .other
      let bound ← when? (← word? "extends") grammar.typeExpression
      let value ← when? (← mark? "=") grammar.typeExpression
      return name :: bound.toList ++ value.toList
    let _ ← mark ">"
    return items.flatten

/-- What follows the colon of a return type: an assertion, a predicate or a type. -/
private def returnedType (grammar : Grammar) : Reader (List Tree) := do
  let token ← current
  let next ← following
  if token.isWord "asserts" && next.kind = .word && !next.afterLineEnd then
    let _ ← advance
    let subject ← anyWord .other
    let narrowed ← when? (← word? "is") grammar.typeExpression
    return subject :: narrowed.toList
  else if token.kind = .word && next.isWord "is" && !next.afterLineEnd then
    let subject ← anyWord .other
    let _ ← advance
    return [subject, ← grammar.typeExpression]
  else
    return [← grammar.typeExpression]

/-- The return type of a function, with its colon. -/
def annotatedReturn (grammar : Grammar) : Reader Tree :=
  node .other do
    let _ ← mark ":"
    returnedType grammar

/-- Type parameters, parameters and return type. -/
def signature (grammar : Grammar) : Reader (List Tree) := do
  let typed := (← get).dialect.types
  let generic ← when? (typed && (← atMark "<")) (typeParameters grammar)
  let taken ← parameters grammar
  let returned ← when? (typed && (← atMark ":")) (annotatedReturn grammar)
  return generic.toList ++ [taken.inRole .parameters] ++
    (returned.map (·.inRole .returnType)).toList

/-! ## Object types -/

/-- Reads `+` or `-` before a modifier of a mapped type. -/
private def signed (rule : Reader Bool) : Reader Bool := do
  let next ← following
  if ((← atMark "+") || (← atMark "-")) && (next.isWord "readonly" || next.isMark "?") then
    let _ ← advance
  rule

/-- A key between brackets with its type, for all keys of a kind. -/
private def indexSignature (grammar : Grammar) : Reader Tree :=
  node .other do
    let _ ← signed (word? "readonly")
    let _ ← mark "["
    let name ← anyWord .other
    let keys ←
      if ← mark? ":" then grammar.typeExpression
      else
        let _ ← word "in"
        grammar.typeExpression
    let renamed ← when? (← word? "as") grammar.typeExpression
    let _ ← mark "]"
    let _ ← signed (mark? "?")
    let value ← when? (← atMark ":") (annotatedType grammar)
    return name :: keys :: renamed.toList ++ value.toList

/-- Whether an index signature or a mapped key is next. -/
private def atIndexSignature : Reader Bool :=
  lookAhead do
    let _ ← signed (word? "readonly")
    let _ ← mark "["
    let _ ← anyWord .other
    return (← atMark ":") || (← atWord "in")

private def memberModifiers : List String :=
  ["public", "private", "protected", "static", "override", "readonly", "async", "get", "set",
    "export"]

private def objectMember (grammar : Grammar) : Reader Tree := do
  let next ← following
  if ← atIndexSignature then
    indexSignature grammar
  else if (← atMark "(") || (← atMark "<") then
    node .other (signature grammar)
  else if (← atWord "new") && (next.isMark "(" || next.isMark "<") then
    node .other do
      let _ ← advance
      signature grammar
  else
    let start ← current
    let words ← modifiers memberModifiers
    let _ ← mark? "*"
    let name ← memberName grammar
    let _ ← mark? "?"
    if (← atMark "(") || (← atMark "<") then
      let head ← signature grammar
      finish start .methodSignature (words ++ [name.inRole .name] ++ head)
    else
      let annotated ← when? (← atMark ":") (annotatedType grammar)
      finish start .other (words ++ [name.inRole .name] ++ annotated.toList)

private def memberEnd : Reader Unit := do
  let token ← current
  if token.isMark ";" || token.isMark "," then
    let _ ← advance
  else
    require (token.afterLineEnd || token.isMark "\x7d")

/-- The members of an object type or an interface, between braces. -/
def objectMembers (grammar : Grammar) (kind : Kind) : Reader Tree :=
  node kind do
    let _ ← mark "\x7b"
    let members ← many do
      let member ← objectMember grammar
      memberEnd
      return member
    let _ ← mark "\x7d"
    return members

/-! ## Type expressions -/

/-- A name with members, such as `a.b.c`. -/
def qualifiedName : Reader Tree :=
  node .other do
    let _ ← anyWord .other
    let _ ← many do
      let _ ← mark "."
      anyWord .other
    return []

/-- A function type or a constructor type. -/
private def functionType (grammar : Grammar) : Reader Tree :=
  node .other do
    let _ ← word? "abstract"
    let _ ← word? "new"
    let generic ← when? (← atMark "<") (typeParameters grammar)
    let taken ← parameters grammar
    let _ ← mark "=>"
    return generic.toList ++ taken :: (← returnedType grammar)

private def tupleItem (grammar : Grammar) : Reader (List Tree) := do
  let _ ← mark? "..."
  let named ← lookAhead do
    let _ ← anyWord .other
    let _ ← mark? "?"
    atMark ":"
  if named then
    let name ← anyWord .other
    let _ ← mark? "?"
    let _ ← mark ":"
    return [name, ← grammar.typeExpression]
  else
    let item ← grammar.typeExpression
    let _ ← mark? "?"
    return [item]

/-- The type of a value: a name, a member, an index or an imported module. -/
private def typeQuery (grammar : Grammar) : Reader Tree :=
  node .other do
    let _ ← word "typeof"
    let start ← current
    let base ←
      if ← atWord "import" then
        let callee ← leaf .other
        let given ← arguments grammar
        finish start .callExpression [callee.inRole .callee, given]
      else anyWord .other
    let _ ← many do
      let _ ← mark "."
      let token ← current
      require (token.kind = .word || token.kind = .privateName)
      advance
    let types ← when? (← atMark "<") (typeArguments grammar)
    return base :: types.toList

private def importType (grammar : Grammar) : Reader Tree :=
  node .other do
    let _ ← word "import"
    let given ← arguments grammar
    let _ ← many do
      let _ ← mark "."
      anyWord .other
    let types ← when? (← atMark "<") (typeArguments grammar)
    return given :: types.toList

/-- Words before a type that make another type of it. -/
private def typeOperators : List String :=
  ["keyof", "unique", "readonly", "infer"]

/-- Reserved words that stand for a type. -/
private def reservedTypes : List String :=
  ["void", "null", "true", "false", "this", "const"]

/-- Words that begin no type name. -/
private def nonTypeWords : List String :=
  reservedWords.filter fun word => !reservedTypes.contains word

private def primaryType (grammar : Grammar) : Reader Tree := do
  let token ← current
  let next ← following
  match token.kind with
  | .number | .string => leaf .other
  | .mark =>
      if token.text = "(" then
        match ← attempt? (functionType grammar) with
        | some function => return function
        | none =>
            node .other do
              let _ ← mark "("
              let inner ← grammar.typeExpression
              let _ ← mark ")"
              return [inner]
      else if token.text = "<" then
        functionType grammar
      else if token.text = "\x7b" then
        objectMembers grammar .objectType
      else if token.text = "[" then
        node .other do
          let _ ← mark "["
          let items ← commaList (tupleItem grammar)
          let _ ← mark "]"
          return items.flatten
      else if token.text = "-" then
        node .other do
          let _ ← mark "-"
          let _ ← advance
          return []
      else
        template grammar.typeExpression
  | .word =>
      if token.text = "new" || (token.text = "abstract" && next.isWord "new") then
        functionType grammar
      else if token.text = "typeof" then
        typeQuery grammar
      else if token.text = "import" then
        importType grammar
      else
        require (!nonTypeWords.contains token.text)
        node .other do
          let name ← qualifiedName
          let types ← when? ((← atMark "<") && !(← afterLineEnd)) (typeArguments grammar)
          return name :: types.toList
  | _ => failure

/-- Array and index brackets after a type. -/
private def typeBrackets (grammar : Grammar) : Reader (List Tree) := do
  let found ← many do
    require (!(← afterLineEnd))
    let _ ← mark "["
    let index ← when? (!(← atMark "]")) grammar.typeExpression
    let _ ← mark "]"
    return index.toList
  return found.flatten

/-- A type without unions: operators before it and brackets after it. -/
private def bracketedType (grammar : Grammar) : Reader Tree :=
  node .other do
    let operators ← many do
      let token ← current
      let next ← following
      require (token.kind = .word && typeOperators.contains token.text)
      require (next.kind = .word || next.isMark "\x7b" || next.isMark "(" || next.isMark "[" ||
        next.isMark "\x60")
      require (!next.afterLineEnd)
      require (!(next.isWord "extends" || next.isWord "is"))
      advance
    let base ← primaryType grammar
    let brackets ← typeBrackets grammar
    let inferred := operators.any fun operator => operator.text == "infer"
    let bounded ← if inferred then word? "extends" else pure false
    let bound ← when? bounded (primaryType grammar)
    return base :: brackets ++ bound.toList

private def joinedTypes (grammar : Grammar) : Reader (List Tree) := do
  let _ ← mark? "|"
  let _ ← mark? "&"
  let first ← bracketedType grammar
  let others ← many do
    require (← markOf? ["|", "&"])
    bracketedType grammar
  return first :: others

/-- A type, with a condition if one follows. -/
def typeExpression (grammar : Grammar) : Reader Tree :=
  node .other do
    let parts ← joinedTypes grammar
    let conditional ← attempt? do
      require (!(← afterLineEnd))
      let _ ← word "extends"
      let bound ← joinedTypes grammar
      let _ ← mark "?"
      let accepted ← grammar.typeExpression
      let _ ← mark ":"
      return bound ++ [accepted, ← grammar.typeExpression]
    return parts ++ conditional.getD []

end CodeIndex.Source.Reader
