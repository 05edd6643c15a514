import CodeIndex.Source.Grammar.Basic

/-!
Contract: names and shapes that values are bound to, and parameter lists.

Owns:
- `pattern`: a name, an object shape or an array shape, with defaults inside;
- `restPattern`: the remaining items;
- `arguments`, `decorator`;
- `parameters`: the parameter list of a function in either dialect.
-/

set_option autoImplicit false

namespace CodeIndex.Source.Reader

/-- The arguments of a call. -/
def arguments (grammar : Grammar) : Reader Tree :=
  node .other do
    let _ ← mark "("
    let items ← commaList do
      let _ ← mark? "..."
      grammar.assignment
    let _ ← mark ")"
    return items

/-- Everything that remains, bound to one name or shape. -/
def restPattern (grammar : Grammar) : Reader Tree :=
  node .restPattern do
    let _ ← mark "..."
    return [← grammar.pattern]

/-- A name or shape with an optional default. -/
private def defaulted (grammar : Grammar) : Reader (List Tree) := do
  let target ← grammar.pattern
  if ← mark? "=" then
    return [target, ← grammar.assignment]
  else
    return [target]

private def objectEntry (grammar : Grammar) : Reader (List Tree) := do
  if ← atMark "..." then
    return [← restPattern grammar]
  let next ← following
  if next.isMark ":" || !(← current).isName then
    let name ← memberName grammar
    let _ ← mark ":"
    return name :: (← defaulted grammar)
  else
    defaulted grammar

private def arrayEntry (grammar : Grammar) : Reader (List Tree) := do
  if ← atMark "..." then
    return [← restPattern grammar]
  else if (← atMark ",") || (← atMark "]") then
    require (← atMark ",")
    return []
  else
    defaulted grammar

/-- A name, or the shape of an object or an array. -/
def pattern (grammar : Grammar) : Reader Tree := do
  if ← atMark "\x7b" then
    node .other do
      let _ ← mark "\x7b"
      let entries ← commaList (objectEntry grammar)
      let _ ← mark "\x7d"
      return entries.flatten
  else if ← atMark "[" then
    node .other do
      let _ ← mark "["
      let entries ← commaList (arrayEntry grammar)
      let _ ← mark "]"
      return entries.flatten
  else
    identifier

/-- A type after a colon. -/
def annotatedType (grammar : Grammar) : Reader Tree :=
  node .other do
    let _ ← mark ":"
    return [← grammar.typeExpression]

/-- Types between angle brackets. -/
def typeArguments (grammar : Grammar) : Reader Tree :=
  node .other do
    let _ ← mark "<"
    let items ← commaList1 grammar.typeExpression
    let _ ← mark ">"
    return items

private def decoratorMember : Nat → Token → Tree → Reader Tree
  | 0, _, base => pure base
  | bound + 1, start, base => do
      if ← mark? "." then
        let property ← anyWord .other
        let member ← finish start .memberExpression [base, property.inRole .property]
        decoratorMember bound start member
      else
        return base

/-- A decorator: a name, a member or a call of one. -/
def decorator (grammar : Grammar) : Reader Tree :=
  node .other do
    let _ ← mark "@"
    if ← atMark "(" then
      return [← arguments grammar]
    let start ← current
    let base ← identifier
    let member ← decoratorMember (← get).size start base
    let types ← attempt? (typeArguments grammar)
    if ← atMark "(" then
      let given ← arguments grammar
      return [← finish start .callExpression
        (member.inRole .callee :: types.toList ++ [given])]
    else
      return [member]

/-- A parameter written without types. -/
private def plainParameter (grammar : Grammar) : Reader Tree := do
  if ← atMark "..." then
    return ← restPattern grammar
  let start ← current
  let target ← grammar.pattern
  if ← mark? "=" then
    let value ← grammar.assignment
    finish start .assignmentPattern [target.inRole .left, value]
  else
    return target

/-- Words that qualify a parameter: each counts only before a name or a shape. -/
private def parameterModifiers : Reader (List Tree) :=
  many do
    let token ← current
    let next ← following
    require (token.kind = .word &&
      ["public", "private", "protected", "readonly", "override"].contains token.text)
    require (next.kind = .word || next.isMark "\x7b" || next.isMark "[")
    leaf .token

/-- A parameter that may have decorators, modifiers, a type and a mark for optional. -/
private def typedParameter (grammar : Grammar) : Reader Tree := do
  let start ← current
  let decorators ← many (decorator grammar)
  let words ← parameterModifiers
  let target ←
    if ← atMark "..." then restPattern grammar
    else if ← atWord "this" then leaf .other
    else grammar.pattern
  let optional ← mark? "?"
  let annotated ← when? (← atMark ":") (annotatedType grammar)
  let value ← when? (← mark? "=") grammar.assignment
  finish start (if optional then .optionalParameter else .requiredParameter)
    (decorators ++ words ++ [target.inRole .pattern] ++
      (annotated.map (·.inRole .annotatedType)).toList ++ value.toList)

/-- The parameters of a function. -/
def parameters (grammar : Grammar) : Reader Tree :=
  node .formalParameters do
    let typed := (← get).dialect.types
    let _ ← mark "("
    let items ← commaList (if typed then typedParameter grammar else plainParameter grammar)
    let _ ← mark ")"
    return items

end CodeIndex.Source.Reader
