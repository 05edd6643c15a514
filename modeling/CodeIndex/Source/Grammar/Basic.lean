import CodeIndex.Source.Cursor

/-!
Contract: the phrases that the rules of the language refer to in circles.

Owns:
- `Grammar`: one rule for each phrase that other phrases may contain;
- `Grammar.empty`: the grammar in which every phrase fails;
- reserved words, member names and the leaves that several rules share.

Rules take the grammar of their parts as an argument. The language is the
grammar obtained by closing those rules over themselves to a depth that the
length of the text bounds.
-/

set_option autoImplicit false

namespace CodeIndex.Source

/-- Rules for the phrases that contain each other. -/
structure Grammar where
  statement : Reader Tree
  /-- Values divided by commas. -/
  expression : Reader Tree
  /-- One value, assignments included. -/
  assignment : Reader Tree
  /-- An operand with its operators before and after it, up to type arguments. -/
  unary : Reader Tree
  /-- An operand with all calls that follow it. -/
  applied : Reader Tree
  /-- A value without operators, calls or member access after it. -/
  primary : Reader Tree
  /-- A name, or the shape of a value taken apart. -/
  pattern : Reader Tree
  typeExpression : Reader Tree
  /-- A markup element. -/
  element : Reader Tree

namespace Grammar

/-- No phrase at all. -/
def empty : Grammar where
  statement := failure
  expression := failure
  assignment := failure
  unary := failure
  applied := failure
  primary := failure
  pattern := failure
  typeExpression := failure
  element := failure

end Grammar

/-- Words that never name a value. -/
def reservedWords : List String :=
  ["break", "case", "catch", "class", "const", "continue", "debugger", "default", "delete", "do",
    "else", "enum", "export", "extends", "finally", "for", "function", "if", "import", "in",
    "instanceof", "new", "return", "super", "switch", "this", "throw", "try", "typeof", "var",
    "void", "while", "with", "null", "true", "false"]

/-- Whether a token is a word that may name a value. -/
def Token.isName (token : Token) : Bool :=
  token.kind == .word && !reservedWords.contains token.text

namespace Reader

/-- A name as an identifier. -/
def identifier : Reader Tree := do
  require (← current).isName
  leaf .identifier

/-- The name of a member: a word, a private name, a string, a number or a computed name. -/
def memberName (grammar : Grammar) : Reader Tree := do
  let token ← current
  match token.kind with
  | .word | .privateName | .string | .number => leaf .other
  | _ =>
      node .other do
        let _ ← mark "["
        let value ← grammar.assignment
        let _ ← mark "]"
        return [value]

/-- Whether a token may begin the name of a member. -/
def startsMemberName (token : Token) : Bool :=
  match token.kind with
  | .word | .privateName | .string | .number => true
  | _ => token.isMark "[" || token.isMark "*"

/-- Words before a member's name that qualify it. A word counts only if a name follows on its
line; otherwise it is the name. -/
def modifiers (words : List String) : Reader (List Tree) :=
  many do
    let token ← current
    let next ← following
    require (token.kind = .word && words.contains token.text)
    require (startsMemberName next && !next.afterLineEnd)
    leaf .token

/-- A text between quotes. -/
def quoted : Reader Tree := do
  require ((← current).kind = .string)
  leaf .other

end Reader

end CodeIndex.Source
