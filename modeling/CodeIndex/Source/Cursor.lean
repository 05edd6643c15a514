import CodeIndex.Source.Token
import CodeIndex.Source.Tree

/-!
Contract: the steps from which grammar rules are composed.

Owns:
- `Dialect`: which optional parts of the language a file may use;
- `Cursor`: the token under the reader and what was read last;
- `Reader`: a rule that reads from a cursor or fails without moving it;
- the single-token rules, the list rules, and the rule for omitted semicolons.

Does not own: any rule of the language itself.

`many` repeats a rule at most as often as bytes are left, so every rule is
total whatever it is given.
-/

set_option autoImplicit false

namespace CodeIndex.Source

/-- The optional parts of the language. -/
structure Dialect where
  /-- Type annotations and declarations of types. -/
  types : Bool
  /-- Markup elements as values. -/
  elements : Bool
  deriving DecidableEq, Repr, Inhabited

/-- The state of reading. -/
structure Cursor where
  dialect : Dialect
  /-- Bytes in the whole text. -/
  size : Nat
  /-- The next token. -/
  token : Token
  /-- The place after the token read last. -/
  lastStop : Position
  /-- The text after the token read last. -/
  lastRest : List Char
  /-- Whether a parameter list before an arrow may have a return type here. -/
  arrowTypes : Bool
  deriving Inhabited

/-- A rule: it yields a result and moves the cursor, or fails. -/
abbrev Reader (α : Type) : Type :=
  StateT Cursor Option α

namespace Reader

variable {α : Type}

/-- Puts the cursor before a place, as if the text up to it had been read. -/
def moveTo (place : Position) (text : List Char) : Reader Unit :=
  modify fun cursor =>
    { cursor with token := Token.scan place text, lastStop := place, lastRest := text }

/-- The next token. -/
def current : Reader Token := do
  return (← get).token

/-- The token after the next one. -/
def following : Reader Token := do
  let token ← current
  return Token.scan token.span.stop token.rest

/-- Reads the next token. -/
def advance : Reader Token := do
  let token ← current
  if token.kind = .endOfText then failure
  moveTo token.span.stop token.rest
  return token

/-- Reads the next few characters as one token. -/
def advanceBy (count : Nat) : Reader Unit := do
  let token ← current
  moveTo (token.span.start.walk (token.here.take count)) (token.here.drop count)

def atMark (mark : String) : Reader Bool := do
  return (← current).isMark mark

def atWord (word : String) : Reader Bool := do
  return (← current).isWord word

/-- Fails unless the condition holds. -/
def require (condition : Bool) : Reader Unit :=
  if condition then pure () else failure

/-- Reads this mark or fails. -/
def mark (text : String) : Reader Token := do
  require (← atMark text)
  advance

/-- Reads this word or fails. -/
def word (text : String) : Reader Token := do
  require (← atWord text)
  advance

/-- Reads this mark if it is next. -/
def mark? (text : String) : Reader Bool := do
  if ← atMark text then
    let _ ← advance
    return true
  else
    return false

/-- Reads this word if it is next. -/
def word? (text : String) : Reader Bool := do
  if ← atWord text then
    let _ ← advance
    return true
  else
    return false

/-- Reads one of these marks if one is next. -/
def markOf? (texts : List String) : Reader Bool := do
  let token ← current
  if token.kind = .mark && texts.contains token.text then
    let _ ← advance
    return true
  else
    return false

/-- Reads one of these words if one is next. -/
def wordOf? (texts : List String) : Reader Bool := do
  let token ← current
  if token.kind = .word && texts.contains token.text then
    let _ ← advance
    return true
  else
    return false

/-- The rule's result, or `none` without moving. -/
def attempt? (rule : Reader α) : Reader (Option α) :=
  (some <$> rule) <|> pure none

/-- Runs the rule when the condition holds. -/
def when? (condition : Bool) (rule : Reader α) : Reader (Option α) :=
  if condition then some <$> rule else pure none

/-- Looks ahead with a rule and moves back. -/
def lookAhead (rule : Reader Bool) : Reader Bool := do
  let cursor ← get
  let found ← attempt? rule
  set cursor
  return found.getD false

private def manyUpTo (rule : Reader α) : Nat → Reader (List α)
  | 0 => pure []
  | bound + 1 => do
      match ← attempt? rule with
      | some item => return item :: (← manyUpTo rule bound)
      | none => return []

/-- Repeats a rule until it fails. -/
def many (rule : Reader α) : Reader (List α) := do
  let cursor ← get
  manyUpTo rule (cursor.size - cursor.lastStop.offset + 1)

private def commaListUpTo (rule : Reader α) : Nat → Reader (List α)
  | 0 => pure []
  | bound + 1 => do
      match ← attempt? rule with
      | none => return []
      | some item =>
          if ← mark? "," then
            return item :: (← commaListUpTo rule bound)
          else
            return [item]

/-- Items divided by commas, possibly none, with a comma allowed after the last. -/
def commaList (rule : Reader α) : Reader (List α) := do
  let cursor ← get
  commaListUpTo rule (cursor.size - cursor.lastStop.offset + 1)

/-- Items divided by commas, at least one. -/
def commaList1 (rule : Reader α) : Reader (List α) := do
  let items ← commaList rule
  require (!items.isEmpty)
  return items

/-- The first characters of a text that fill a number of bytes. -/
private def takeBytes : Nat → List Char → List Char
  | _, [] => []
  | count, character :: rest =>
      if count = 0 then [] else character :: takeBytes (count - character.utf8Size) rest

/-- The node from a token to the last token read. -/
def finish (start : Token) (kind : Kind) (children : List Tree) : Reader Tree := do
  let stop := (← get).lastStop
  let text := takeBytes (stop.offset - start.span.start.offset) start.here
  return ⟨none, kind, ⟨start.span.start, stop⟩, String.ofList text, children⟩

/-- The node around the parts that a rule reads. -/
def node (kind : Kind) (parts : Reader (List Tree)) : Reader Tree := do
  let start ← current
  finish start kind (← parts)

/-- A token as a node of its own. -/
def asLeaf (token : Token) (kind : Kind) : Tree :=
  ⟨none, kind, token.span, token.text, []⟩

/-- Reads any token as a node of the given kind. -/
def leaf (kind : Kind) : Reader Tree := do
  return asLeaf (← advance) kind

/-- Reads this word as a bare token. -/
def wordToken (text : String) : Reader Tree := do
  return asLeaf (← word text) .token

/-- Reads a word of any text as a node. -/
def anyWord (kind : Kind) : Reader Tree := do
  require ((← current).kind = .word)
  leaf kind

/-- Whether a line ends before the next token. -/
def afterLineEnd : Reader Bool := do
  return (← current).afterLineEnd

/-- Ends a statement: by a semicolon, or by the places where one may be left out. -/
def endStatement : Reader Unit := do
  if ← mark? ";" then
    return ()
  let token ← current
  require (token.afterLineEnd || token.kind = .endOfText || token.isMark "\x7d")

end Reader

end CodeIndex.Source
