import CodeIndex.Source.Grammar.Class
import CodeIndex.Source.Grammar.Element
import CodeIndex.Source.Grammar.Template

/-!
Contract: values.

Owns:
- `primary`: literals, names, functions, classes, templates and elements;
- `unary`: a primary with calls, member access and operators around it;
- `applied`: a `unary` applied to type arguments;
- `assignment`: operators, conditions and assignments;
- `expression`: values divided by commas.

Operators of two operands are read as flat lists: their precedence moves no
call before another, and nothing else is extracted from them. Type arguments
before a call bind less close than arithmetic and closer than comparisons: they
apply to the whole of `a + f` in `a + f<T>(x)`, and to `await f` in
`await f<T>(x)`.
-/

set_option autoImplicit false

namespace CodeIndex.Source.Reader

/-! ## Literals -/

private def arrayLiteral (grammar : Grammar) : Reader Tree :=
  node .other do
    let _ ← mark "["
    let items ← commaList do
      if ← atMark "," then
        return []
      let _ ← mark? "..."
      return [← grammar.assignment]
    let _ ← mark "]"
    return items.flatten

private def objectProperty (grammar : Grammar) : Reader Tree := do
  let start ← current
  if ← mark? "..." then
    return ← grammar.assignment
  let words ← modifiers ["async", "get", "set"]
  let _ ← mark? "*"
  let name ← memberName grammar
  if (← atMark "(") || ((← get).dialect.types && (← atMark "<")) then
    let tail ← methodTail grammar
    finish start .methodDefinition (words ++ [name.inRole .name] ++ tail)
  else if ← markOf? [":", "="] then
    let value ← grammar.assignment
    finish start .other [name, value]
  else
    return name

private def objectLiteral (grammar : Grammar) : Reader Tree :=
  node .other do
    let _ ← mark "\x7b"
    let items ← commaList (objectProperty grammar)
    let _ ← mark "\x7d"
    return items

private def patternLiteral : Reader Tree := do
  let token ← current
  match scanPattern token with
  | none => failure
  | some literal =>
      moveTo literal.span.stop literal.rest
      return asLeaf literal .other

private def parenthesized (grammar : Grammar) : Reader Tree :=
  node .other do
    let _ ← mark "("
    let inner ← grammar.expression
    let _ ← mark ")"
    return [inner]

/-! ## Values without operators -/

/-- `new` with what it builds: a member of a primary, without calls. -/
private def constructed (grammar : Grammar) : Nat → Token → Tree → Reader Tree
  | 0, _, base => pure base
  | bound + 1, start, base => do
      if ← mark? "." then
        let token ← current
        require (token.kind = .word || token.kind = .privateName)
        let property ← leaf .other
        let member ← finish start .memberExpression [base, property.inRole .property]
        constructed grammar bound start member
      else if ← mark? "[" then
        let index ← grammar.expression
        let _ ← mark "]"
        let member ← finish start .other [base, index]
        constructed grammar bound start member
      else
        return base

private def newExpression (grammar : Grammar) : Reader Tree := do
  let start ← current
  let _ ← word "new"
  if ← mark? "." then
    let _ ← anyWord .other
    return ← finish start .other []
  let inner ← current
  let base ← grammar.primary
  let built ← constructed grammar (← get).size inner base
  let types ←
    if (← get).dialect.types && (← atMark "<") then attempt? (typeArguments grammar) else pure none
  let given ← when? (← atMark "(") (arguments grammar)
  finish start .newExpression (built.inRole .constructed :: types.toList ++ given.toList)

/-- `import` as a function or as the module's own description. -/
private def importExpression : Reader Tree := do
  let start ← current
  let callee ← leaf .other
  if ← mark? "." then
    let _ ← anyWord .other
    finish start .other []
  else
    require (← atMark "(")
    return callee

/-- Words that are values of their own and no names. -/
private def valueWords : List String :=
  ["this", "super", "null", "true", "false", "undefined"]

private def wordValue (grammar : Grammar) : Reader Tree := do
  let token ← current
  let next ← following
  if ← atFunction then
    functionExpression grammar
  else if next.isMark "=>" || token.text = "async" then
    match ← arrowFunction? grammar with
    | some function => return function
    | none => identifier
  else if token.text = "class" then
    classExpression grammar
  else if token.text = "new" then
    newExpression grammar
  else if token.text = "import" then
    importExpression
  else if valueWords.contains token.text then
    leaf .other
  else
    identifier

private def markValue (grammar : Grammar) : Reader Tree := do
  let token ← current
  let dialect := (← get).dialect
  if token.text = "(" then
    match ← arrowFunction? grammar with
    | some function => return function
    | none => parenthesized grammar
  else if token.text = "[" then
    arrayLiteral grammar
  else if token.text = "\x7b" then
    objectLiteral grammar
  else if token.text = "\x60" then
    template grammar.expression
  else if token.text = "/" || token.text = "/=" then
    patternLiteral
  else if token.text = "<" then
    let generic ← if dialect.types then arrowFunction? grammar else pure none
    match generic with
    | some function => return function
    | none =>
        require dialect.elements
        element grammar
  else if token.text = "@" then
    classExpression grammar
  else
    failure

/-- A value without operators, calls or member access after it. -/
def primary (grammar : Grammar) : Reader Tree := do
  match (← current).kind with
  | .number | .string | .privateName => leaf .other
  | .word => wordValue grammar
  | .mark => markValue grammar
  | _ => failure

/-! ## Calls and member access -/

/-- Type arguments that a call or a template follows. -/
private def callTypes (grammar : Grammar) : Reader Tree := do
  require ((← get).dialect.types && (← atMark "<"))
  let types ← typeArguments grammar
  require ((← atMark "(") || (← atMark "\x60"))
  return types

/-- Type arguments that nothing to be applied to follows. -/
private def bareTypes (grammar : Grammar) : Reader Tree := do
  require ((← get).dialect.types && (← atMark "<"))
  let types ← typeArguments grammar
  let token ← current
  require (token.kind = .endOfText || token.afterLineEnd ||
    (token.kind = .mark && [")", "]", "\x7d", ",", ";", ":", ".", "?.", "?", "=", "==", "===",
      "!=", "!==", "&&", "||", "??"].contains token.text))
  return types

/-- The call of a value whose arguments, or the template it is applied to, come next. -/
private def call (grammar : Grammar) (start : Token) (base : Tree) (before : List Tree) :
    Reader Tree := do
  let given ← if ← atMark "(" then arguments grammar else template grammar.expression
  finish start .callExpression (base.inRole .callee :: before ++ [given])

/-- One step of access after a value, or `none` if there is none. -/
private def accessStep (grammar : Grammar) (start : Token) (base : Tree) :
    Reader (Option Tree) := do
  let token ← current
  if token.kind = .mark then
    if token.text = "." then
      let _ ← advance
      let next ← current
      require (next.kind = .word || next.kind = .privateName)
      let property ← leaf .other
      return some (← finish start .memberExpression [base, property.inRole .property])
    else if token.text = "?." then
      let _ ← advance
      let next ← current
      if next.kind = .word || next.kind = .privateName then
        let property ← leaf .other
        return some (← finish start .memberExpression [base, property.inRole .property])
      else if next.isMark "[" then
        let _ ← advance
        let index ← grammar.expression
        let _ ← mark "]"
        return some (← finish start .other [base, index])
      else
        let types ← when? (next.isMark "<") (typeArguments grammar)
        some <$> call grammar start base types.toList
    else if token.text = "[" then
      let _ ← advance
      let index ← grammar.expression
      let _ ← mark "]"
      return some (← finish start .other [base, index])
    else if token.text = "(" || token.text = "\x60" then
      some <$> call grammar start base []
    else if token.text = "!" && (← get).dialect.types && !token.afterLineEnd then
      let _ ← advance
      return some (← finish start .other [base])
    else
      return none
  else
    return none

private def accessUpTo (grammar : Grammar) (start : Token) : Nat → Tree → Reader Tree
  | 0, base => pure base
  | bound + 1, base => do
      match ← accessStep grammar start base with
      | some larger => accessUpTo grammar start bound larger
      | none => return base

/-- A value with the calls and member access after it, up to type arguments. -/
private def access (grammar : Grammar) (start : Token) (base : Tree) : Reader Tree := do
  accessUpTo grammar start (← get).size base

/-- A value applied to type arguments, with what follows them, or `none` if there are none. -/
private def typedStep (grammar : Grammar) (start : Token) (base : Tree) :
    Reader (Option Tree) := do
  if !(← atMark "<") then
    return none
  match ← attempt? (callTypes grammar) with
  | some types =>
      let called ← call grammar start base [types]
      some <$> access grammar start called
  | none =>
      match ← attempt? (bareTypes grammar) with
      | some types =>
          let applied ← finish start .other [base, types]
          some <$> access grammar start applied
      | none => return none

/-! ## Operators -/

private def unaryMarks : List String :=
  ["!", "~", "+", "-", "++", "--"]

private def unaryWords : List String :=
  ["typeof", "void", "delete", "await"]

/-- A type in angle brackets before a value. -/
private def assertion (grammar : Grammar) : Reader Tree :=
  node .other do
    let types ← typeArguments grammar
    return [types, ← grammar.unary]

/-- An operand with the operators that apply to it alone. -/
def unary (grammar : Grammar) : Reader Tree := do
  let start ← current
  let dialect := (← get).dialect
  if (start.kind = .mark && unaryMarks.contains start.text) ||
      (start.kind = .word && unaryWords.contains start.text) then
    let _ ← advance
    let operand ← grammar.unary
    finish start .other [operand]
  else
    let base? ←
      if start.isMark "<" && dialect.types && !dialect.elements then attempt? (primary grammar)
      else some <$> primary grammar
    match base? with
    | none => assertion grammar
    | some base =>
        let value ← access grammar start base
        let token ← current
        if (token.isMark "++" || token.isMark "--") && !token.afterLineEnd then
          let _ ← advance
          finish start .other [value]
        else
          return value

private def appliedUpTo (grammar : Grammar) (start : Token) : Nat → Tree → Reader Tree
  | 0, base => pure base
  | bound + 1, base => do
      match ← typedStep grammar start base with
      | some larger => appliedUpTo grammar start bound larger
      | none => return base

/-- An operand with all calls that follow it, also those with type arguments. -/
def applied (grammar : Grammar) : Reader Tree := do
  let start ← current
  let base ← unary grammar
  appliedUpTo grammar start (← get).size base

/-- Operators that bind closer than type arguments. -/
private def closeMarks : List String :=
  ["+", "-", "*", "/", "%", "**"]

/-- Operators that bind less close than type arguments. -/
private def looseMarks : List String :=
  ["||", "&&", "??", "|", "^", "&", "==", "!=", "===", "!=="]

/-- The length of an operator that starts with an angle bracket. -/
inductive AngleOperator where
  /-- A comparison. -/
  | compare (size : Nat)
  | shift (size : Nat)
  | assign (size : Nat)

/-- The operator that starts with an angle bracket. -/
private def angleOperator (text : List Char) : Option AngleOperator :=
  match text with
  | '<' :: '<' :: '=' :: _ => some (.assign 3)
  | '<' :: '<' :: _ => some (.shift 2)
  | '<' :: '=' :: _ => some (.compare 2)
  | '<' :: _ => some (.compare 1)
  | '>' :: '>' :: '>' :: '=' :: _ => some (.assign 4)
  | '>' :: '>' :: '>' :: _ => some (.shift 3)
  | '>' :: '>' :: '=' :: _ => some (.assign 3)
  | '>' :: '>' :: _ => some (.shift 2)
  | '>' :: '=' :: _ => some (.compare 2)
  | '>' :: _ => some (.compare 1)
  | _ => none

/-- Reads an arithmetic operator. -/
private def closeOperator : Reader Unit := do
  let token ← current
  if token.kind = .mark && closeMarks.contains token.text then
    let _ ← advance
  else
    require (token.isMark "<" || token.isMark ">")
    match angleOperator token.here with
    | some (.shift size) => advanceBy size
    | _ => failure

/-- Reads a comparison or a logical operator. -/
private def looseOperator : Reader Unit := do
  let token ← current
  if token.kind = .mark && looseMarks.contains token.text then
    let _ ← advance
  else if token.isWord "in" || token.isWord "instanceof" then
    let _ ← advance
  else
    require (token.isMark "<" || token.isMark ">")
    match angleOperator token.here with
    | some (.compare size) => advanceBy size
    | _ => failure

/-- Operands read so far as one node. -/
private def joined (start : Token) (operands : List Tree) : Reader Tree :=
  match operands with
  | [operand] => pure operand
  | _ => finish start .other operands

/-- Further operands of arithmetic operators. Type arguments apply to all operands before them. -/
private def closeUpTo (grammar : Grammar) (start : Token) : Nat → List Tree → Reader Tree
  | 0, operands => joined start operands
  | bound + 1, operands => do
      let next ← attempt? do
        closeOperator
        grammar.unary
      match next with
      | some operand => closeUpTo grammar start bound (operands ++ [operand])
      | none =>
          let base ← joined start operands
          match ← typedStep grammar start base with
          | some applied => closeUpTo grammar start bound [applied]
          | none => return base

/-- Operands of arithmetic operators. -/
private def close (grammar : Grammar) : Reader Tree := do
  let start ← current
  let first ← unary grammar
  closeUpTo grammar start (← get).size [first]

/-- An operator with its second operand, or a type that the value is taken at. -/
private def looseStep (grammar : Grammar) : Reader Tree := do
  let token ← current
  if (← get).dialect.types && (token.isWord "as" || token.isWord "satisfies") &&
      !token.afterLineEnd then
    let _ ← advance
    if (← atWord "const") then
      leaf .other
    else
      grammar.typeExpression
  else
    looseOperator
    close grammar

private def binary (grammar : Grammar) : Reader Tree := do
  let start ← current
  let first ← close grammar
  let others ← many (looseStep grammar)
  joined start (first :: others)

/-- The value chosen when a condition holds, up to the colon. Where its head could be taken for
a parameter list with a return type, the colon decides. -/
private def chosen (grammar : Grammar) : Reader Tree := do
  let cursor ← get
  let value ← grammar.assignment
  if ← mark? ":" then
    return value
  else
    require cursor.dialect.types
    set { cursor with arrowTypes := false }
    let value ← grammar.assignment
    let _ ← mark ":"
    modify fun later => { later with arrowTypes := cursor.arrowTypes }
    return value

private def conditional (grammar : Grammar) : Reader Tree := do
  let start ← current
  let condition ← binary grammar
  if ← mark? "?" then
    let accepted ← chosen grammar
    let rejected ← grammar.assignment
    finish start .other [condition, accepted, rejected]
  else
    return condition

private def assignmentMarks : List String :=
  ["=", "+=", "-=", "*=", "/=", "%=", "**=", "&&=", "||=", "??=", "&=", "|=", "^="]

/-- Reads an operator that assigns. -/
private def assignmentOperator : Reader Unit := do
  let token ← current
  if token.kind = .mark && assignmentMarks.contains token.text then
    let _ ← advance
  else
    require (token.isMark "<" || token.isMark ">")
    match angleOperator token.here with
    | some (.assign size) => advanceBy size
    | _ => failure

private def yieldExpression (grammar : Grammar) : Reader Tree :=
  node .other do
    let _ ← word "yield"
    let token ← current
    if token.afterLineEnd then
      return []
    let delegated ← mark? "*"
    if delegated then
      return [← grammar.assignment]
    else
      return (← attempt? grammar.assignment).toList

/-- One value, assignments included. -/
def assignment (grammar : Grammar) : Reader Tree := do
  if ← atWord "yield" then
    return ← yieldExpression grammar
  let start ← current
  let target ← conditional grammar
  match ← attempt? assignmentOperator with
  | none => return target
  | some () =>
      let value ← grammar.assignment
      finish start .other [target, value]

/-- Values divided by commas. -/
def expression (grammar : Grammar) : Reader Tree := do
  let start ← current
  let first ← assignment grammar
  let others ← many do
    let _ ← mark ","
    grammar.assignment
  if others.isEmpty then
    return first
  else
    finish start .other (first :: others)

end CodeIndex.Source.Reader
