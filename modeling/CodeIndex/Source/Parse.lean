import CodeIndex.Source.Grammar.Statement

/-!
Contract: from source text to its tree.

Owns:
- `Grammar.atDepth`: the rules closed over themselves to a depth;
- `parse`: the tree of a whole file.

A text that is not a sequence of statements has a tree without children.
-/

set_option autoImplicit false

namespace CodeIndex.Source

namespace Grammar

/-- The grammar for phrases nested at most this deep. Each rule reads its parts with the grammar
one step less deep. -/
def atDepth : Nat → Grammar
  | 0 => empty
  | depth + 1 =>
      { statement := fun cursor => Reader.statement (atDepth depth) cursor
        expression := fun cursor => Reader.expression (atDepth depth) cursor
        assignment := fun cursor => Reader.assignment (atDepth depth) cursor
        unary := fun cursor => Reader.unary (atDepth depth) cursor
        applied := fun cursor => Reader.applied (atDepth depth) cursor
        primary := fun cursor => Reader.primary (atDepth depth) cursor
        pattern := fun cursor => Reader.pattern (atDepth depth) cursor
        typeExpression := fun cursor => Reader.typeExpression (atDepth depth) cursor
        element := fun cursor => Reader.element (atDepth depth) cursor }

end Grammar

/-- All statements up to the end of the text. -/
private def program (grammar : Grammar) : Reader (List Tree) := do
  let statements ← Reader.many grammar.statement
  let token ← Reader.current
  Reader.require (token.kind = .endOfText)
  return statements

/-- The place after a first line that names an interpreter. -/
private def skipInterpreterLine : List Char → Position × List Char
  | '#' :: '!' :: rest =>
      let line := rest.takeWhile (· != '\n')
      (Position.origin.walk ('#' :: '!' :: line), rest.dropWhile (· != '\n'))
  | text => (Position.origin, text)

/-- The tree of a source text. Each phrase consumes text or stands for another at most twice, so
the depth is bounded by the size. -/
def parse (dialect : Dialect) (source : String) : Tree :=
  let characters := source.toList
  let stop := Position.origin.walk characters
  let (start, text) := skipInterpreterLine characters
  let cursor : Cursor :=
    { dialect := dialect
      size := stop.offset
      token := Token.scan start text
      lastStop := start
      lastRest := text
      arrowTypes := true }
  let grammar := Grammar.atDepth (3 * stop.offset + 16)
  let children :=
    match (program grammar).run cursor with
    | some (statements, _) => statements
    | none => []
  ⟨none, .other, ⟨Position.origin, stop⟩, source, children⟩

end CodeIndex.Source
