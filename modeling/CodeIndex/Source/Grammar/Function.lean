import CodeIndex.Source.Grammar.TypeExpression

/-!
Contract: functions in all their forms.

Owns:
- `block`: statements between braces;
- `functionExpression`, `functionDeclaration`: the keyword forms;
- `arrowFunction`: parameters, an arrow and a body;
- `methodTail`: what follows the name of a method with a body.
-/

set_option autoImplicit false

namespace CodeIndex.Source.Reader

/-- Statements between braces. -/
def block (grammar : Grammar) : Reader Tree :=
  node .statementBlock do
    let _ ← mark "\x7b"
    let statements ← many grammar.statement
    let _ ← mark "\x7d"
    return statements

/-- The head of a function written with the keyword, and whether it is a generator. -/
private def functionHead (name : Reader (Option Tree)) (grammar : Grammar) :
    Reader (Bool × List Tree) := do
  let waiting ← when? (← atWord "async") (wordToken "async")
  let _ ← word "function"
  let generator ← mark? "*"
  let named ← name
  let head ← signature grammar
  return (generator, waiting.toList ++ (named.map (·.inRole .name)).toList ++ head)

/-- A function as a value. -/
def functionExpression (grammar : Grammar) : Reader Tree := do
  let start ← current
  let name := do
    when? (!(← atMark "(") && !(← atMark "<")) (anyWord .identifier)
  let (generator, head) ← functionHead name grammar
  let body ← block grammar
  finish start (if generator then .generatorFunction else .functionExpression)
    (head ++ [body.inRole .body])

/-- A function as a statement. Where types may be written the body may be missing; such a
signature declares no function. -/
def functionDeclaration (grammar : Grammar) : Reader Tree := do
  let start ← current
  let (generator, head) ← functionHead (some <$> anyWord .identifier) grammar
  if ← atMark "\x7b" then
    let body ← block grammar
    finish start (if generator then .generatorFunctionDeclaration else .functionDeclaration)
      (head ++ [body.inRole .body])
  else
    require (← get).dialect.types
    endStatement
    finish start .other head

/-- Whether the words that begin a keyword function are next. -/
def atFunction : Reader Bool := do
  let next ← following
  return (← atWord "function") ||
    ((← atWord "async") && next.isWord "function" && !next.afterLineEnd)

/-- Everything before the arrow of a function. -/
private def arrowHead (grammar : Grammar) : Reader (List Tree) := do
  let next ← following
  let waiting ←
    when? ((← atWord "async") && !next.afterLineEnd && !next.isMark "=>") (wordToken "async")
  let taken ←
    if (← current).isName then
      let name ← leaf .identifier
      pure [name.inRole .parameter]
    else
      let cursor ← get
      let typed := cursor.dialect.types
      let generic ← when? (typed && (← atMark "<")) (typeParameters grammar)
      let list ← parameters grammar
      let returned ←
        when? (typed && cursor.arrowTypes && (← atMark ":")) (annotatedReturn grammar)
      pure (generic.toList ++ [list.inRole .parameters] ++
        (returned.map (·.inRole .returnType)).toList)
  require (!(← afterLineEnd))
  let _ ← mark "=>"
  return waiting.toList ++ taken

/-- A function written with an arrow, or `none` if no arrow follows what looks like its head. -/
def arrowFunction? (grammar : Grammar) : Reader (Option Tree) := do
  let start ← current
  match ← attempt? (arrowHead grammar) with
  | none => return none
  | some head =>
      let body ← if ← atMark "\x7b" then block grammar else grammar.assignment
      return some (← finish start .arrowFunction (head ++ [body.inRole .body]))

/-- The rest of a method with a body, after its name. -/
def methodTail (grammar : Grammar) : Reader (List Tree) := do
  let head ← signature grammar
  let body ← block grammar
  return head ++ [body.inRole .body]

end CodeIndex.Source.Reader
