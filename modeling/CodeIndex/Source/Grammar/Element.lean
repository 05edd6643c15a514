import CodeIndex.Source.Grammar.Pattern

/-!
Contract: markup elements inside source text.

Owns: `element`, with attributes, nested elements and values in braces.

Text between tags is passed over as it stands. Only an element that closes
itself carries its tag in the role of a name.
-/

set_option autoImplicit false

namespace CodeIndex.Source.Reader

private def isTagPart (character : Char) : Bool :=
  Character.isWordPart character || character == '-'

/-- One word of a tag or an attribute, hyphens included. -/
private def tagWord : Reader Unit := do
  let token ← current
  require (token.kind = .word)
  advanceBy (token.here.takeWhile isTagPart).length

/-- The name of a tag or an attribute: words divided by points or colons. -/
private def tagName : Reader Tree :=
  node .other do
    tagWord
    let _ ← many do
      require (← markOf? [".", ":"])
      tagWord
    return []

/-- A value in braces, possibly spread, possibly empty. -/
private def braced (grammar : Grammar) : Reader (List Tree) := do
  let _ ← mark "\x7b"
  if ← atMark "\x7d" then
    return []
  let _ ← mark? "..."
  return [← grammar.expression]

/-- A quoted attribute value, which holds any character but its quote. -/
private def attributeText : Reader Tree :=
  node .other do
    match (← current).here with
    | [] => failure
    | quote :: rest =>
        require (quote == Character.doubleQuote || quote == Character.singleQuote)
        let inside := rest.takeWhile (· != quote)
        advanceBy (inside.length + 2)
        return []

private def tagAttribute (grammar : Grammar) : Reader (List Tree) := do
  if ← atMark "\x7b" then
    let values ← braced grammar
    let _ ← mark "\x7d"
    return values
  let _ ← tagName
  if ← mark? "=" then
    if ← atMark "\x7b" then
      let values ← braced grammar
      let _ ← mark "\x7d"
      return values
    else if ← atMark "<" then
      return [← grammar.element]
    else
      return [← attributeText]
  else
    return []

/-- Passes over the text of an element up to a tag or a brace. -/
private def elementText (place : Position) : List Char → Position × List Char
  | [] => (place, [])
  | character :: rest =>
      if character == '<' || character == '\x7b' then
        (place, character :: rest)
      else
        elementText (place.step character) rest

/-- What stands between the tags of an element. The closing tag is read except for its last
mark. -/
private def elementContent (grammar : Grammar) :
    Nat → Position → List Char → Reader (List Tree)
  | 0, _, _ => failure
  | bound + 1, place, text => do
      let (next, rest) := elementText place text
      moveTo next rest
      if ← atMark "\x7b" then
        let values ← braced grammar
        let close ← current
        require (close.isMark "\x7d")
        return values ++ (← elementContent grammar bound close.span.stop close.rest)
      else if (← following).isMark "/" then
        let _ ← mark "<"
        let _ ← mark "/"
        let _ ← attempt? tagName
        return []
      else
        let child ← grammar.element
        let cursor ← get
        return child :: (← elementContent grammar bound cursor.lastStop cursor.lastRest)

/-- An element with its attributes and content. -/
def element (grammar : Grammar) : Reader Tree := do
  let start ← current
  let _ ← mark "<"
  let name ← attempt? tagName
  let types ← when? ((← get).dialect.types && (← atMark "<")) (typeArguments grammar)
  let attributes ← many (tagAttribute grammar)
  if ← mark? "/" then
    let _ ← mark ">"
    finish start .other
      ((name.map (·.inRole .name)).toList ++ types.toList ++ attributes.flatten)
  else
    let open_ ← current
    require (open_.isMark ">")
    let content ← elementContent grammar ((← get).size + 1) open_.span.stop open_.rest
    let _ ← mark ">"
    finish start .other (types.toList ++ attributes.flatten ++ content)

end CodeIndex.Source.Reader
