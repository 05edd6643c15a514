import CodeIndex.Source.Grammar.Expression
import CodeIndex.Source.Grammar.Module

/-!
Contract: statements.

Owns: `statement`, for declarations, imports and exports, control flow, labels,
blocks and values that stand alone.
-/

set_option autoImplicit false

namespace CodeIndex.Source.Reader

/-- A value in parentheses. -/
private def condition (grammar : Grammar) : Reader Tree := do
  let _ ← mark "("
  let value ← grammar.expression
  let _ ← mark ")"
  return value

private def ifStatement (grammar : Grammar) : Reader (List Tree) := do
  let _ ← word "if"
  let test ← condition grammar
  let accepted ← grammar.statement
  let rejected ← when? (← word? "else") grammar.statement
  return test :: accepted :: rejected.toList

/-- The head of a loop over the items or keys of a value, up to the value. -/
private def iterationTarget (grammar : Grammar) : Reader Tree := do
  let token ← current
  let target ←
    if token.isWord "var" || token.isWord "let" || token.isWord "const" then
      let _ ← advance
      grammar.pattern
    else
      grammar.unary
  require (← wordOf? ["of", "in"])
  return target

private def forStatement (grammar : Grammar) : Reader (List Tree) := do
  let _ ← word "for"
  let _ ← word? "await"
  let _ ← mark "("
  match ← attempt? (iterationTarget grammar) with
  | some target =>
      let source ← grammar.expression
      let _ ← mark ")"
      return [target, source, ← grammar.statement]
  | none =>
      let token ← current
      let first ←
        if token.isWord "var" || token.isWord "let" || token.isWord "const" then
          some <$> variableList grammar
        else when? (!token.isMark ";") grammar.expression
      let _ ← mark ";"
      let test ← when? (!(← atMark ";")) grammar.expression
      let _ ← mark ";"
      let step ← when? (!(← atMark ")")) grammar.expression
      let _ ← mark ")"
      return first.toList ++ test.toList ++ step.toList ++ [← grammar.statement]

private def whileStatement (grammar : Grammar) : Reader (List Tree) := do
  let _ ← word "while"
  let test ← condition grammar
  return [test, ← grammar.statement]

private def doStatement (grammar : Grammar) : Reader (List Tree) := do
  let _ ← word "do"
  let body ← grammar.statement
  let _ ← word "while"
  let test ← condition grammar
  let _ ← mark? ";"
  return [body, test]

/-- A word with an optional value on its line. -/
private def jump (grammar : Grammar) : Reader (List Tree) := do
  let _ ← advance
  let token ← current
  let bare := token.afterLineEnd || token.isMark ";" || token.isMark "\x7d" ||
    token.kind = .endOfText
  let value ← when? (!bare) grammar.expression
  endStatement
  return value.toList

private def tryStatement (grammar : Grammar) : Reader (List Tree) := do
  let _ ← word "try"
  let body ← block grammar
  let caught ←
    if ← word? "catch" then
      let binding ←
        if ← mark? "(" then
          let target ← grammar.pattern
          let annotated ←
            when? ((← get).dialect.types && (← atMark ":")) (annotatedType grammar)
          let _ ← mark ")"
          pure (target :: annotated.toList)
        else pure []
      let handler ← block grammar
      pure (binding ++ [handler])
    else pure []
  let last ← when? (← word? "finally") (block grammar)
  return body :: caught ++ last.toList

private def switchCase (grammar : Grammar) : Reader (List Tree) := do
  let test ←
    if ← word? "default" then pure none
    else
      let _ ← word "case"
      some <$> grammar.expression
  let _ ← mark ":"
  return test.toList ++ (← many grammar.statement)

private def switchStatement (grammar : Grammar) : Reader (List Tree) := do
  let _ ← word "switch"
  let subject ← condition grammar
  let _ ← mark "\x7b"
  let cases ← many (switchCase grammar)
  let _ ← mark "\x7d"
  return subject :: cases.flatten

private def withStatement (grammar : Grammar) : Reader (List Tree) := do
  let _ ← word "with"
  let subject ← condition grammar
  return [subject, ← grammar.statement]

private def labeled (grammar : Grammar) : Reader (List Tree) := do
  let _ ← identifier
  let _ ← mark ":"
  return [← grammar.statement]

private def valueStatement (grammar : Grammar) : Reader (List Tree) := do
  let value ← grammar.expression
  endStatement
  return [value]

/-- The decorated export or class that starts here. -/
private def decorated (grammar : Grammar) : Reader Tree := do
  let exported ← lookAhead do
    let _ ← many (decorator grammar)
    atWord "export"
  if exported then exportStatement grammar else classDeclaration grammar

private def wordStatement (grammar : Grammar) (token next : Token) : Reader Tree :=
  match token.text with
  | "if" => node .other (ifStatement grammar)
  | "for" => node .other (forStatement grammar)
  | "while" => node .other (whileStatement grammar)
  | "do" => node .other (doStatement grammar)
  | "return" | "throw" | "break" | "continue" | "debugger" => node .other (jump grammar)
  | "try" => node .other (tryStatement grammar)
  | "switch" => node .other (switchStatement grammar)
  | "with" => node .other (withStatement grammar)
  | "export" => exportStatement grammar
  | "import" =>
      if next.isMark "(" || next.isMark "." then node .other (valueStatement grammar)
      else importStatement grammar
  | _ => do
      match ← declaration? grammar false with
      | some tree => return tree
      | none =>
          if token.isName && next.isMark ":" then node .other (labeled grammar)
          else node .other (valueStatement grammar)

/-- One statement. -/
def statement (grammar : Grammar) : Reader Tree := do
  let token ← current
  let next ← following
  if token.kind = .word then
    wordStatement grammar token next
  else if token.isMark "\x7b" then
    match ← attempt? (block grammar) with
    | some group => return group
    | none => node .other (valueStatement grammar)
  else if token.isMark ";" then
    leaf .other
  else if token.isMark "@" then
    decorated grammar
  else
    node .other (valueStatement grammar)

end CodeIndex.Source.Reader
