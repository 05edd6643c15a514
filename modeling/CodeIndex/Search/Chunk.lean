import CodeIndex.Record.Basic
import CodeIndex.Search.Term
import CodeIndex.Text.Blank
import CodeIndex.Text.Split

/-!
Contract: the units that a search finds.

Owns:
- `Chunk`: a symbol, a member, or a whole file without symbols;
- `chunksOf`: the chunks of a record.
-/

set_option autoImplicit false

namespace CodeIndex.Search

/-- A unit that a search finds. -/
structure Chunk where
  id : String
  path : String
  symbol : String
  /-- The kind of the symbol; none for a whole file. -/
  kind : Option SymbolKind
  startLine : UInt32
  endLine : UInt32
  /-- The terms it is found by, each once. -/
  tokens : List String
  /-- One line that shows what it is. -/
  preview : String
  deriving DecidableEq, Repr, Inhabited

/-- The longest preview, in characters. -/
def longestPreview : Nat := 120

/-- The beginning of a line. -/
private def previewOf (line : String) : String :=
  String.ofList (line.toList.take longestPreview)

/-- The texts that a symbol is found by. -/
def symbolTexts (path : String) (symbol : Symbol) (parent : Option Symbol) : List String :=
  [symbol.name, symbol.kind.name] ++
    (symbol.params.flatMap fun param => param.name :: param.typeText.toList) ++
    symbol.returnType.toList ++
    (parent.map (·.name)).toList ++
    [path]

/-- The chunk of a symbol, or of a member of one. -/
def symbolChunk (path : String) (symbol : Symbol) (parent : Option Symbol) : Chunk :=
  let owner := parent.map (·.name)
  let qualified :=
    match owner with
    | some name => name ++ "." ++ symbol.name
    | none => symbol.name
  { id := qualifiedKey path qualified
    path := path
    symbol := symbol.name
    kind := some symbol.kind
    startLine := symbol.line
    endLine := symbol.endLine
    tokens := tokens (Text.join " " (symbolTexts path symbol parent))
    preview := previewOf (symbol.signature owner) }

/-- The last component of a path, which may be empty. -/
private def lastComponent (path : String) : String :=
  ((Text.split '/' path).getLast?).getD path

/-- The chunk of a whole file. -/
def fileChunk (record : Record) : Chunk :=
  let name := lastComponent record.path
  let lines := Text.lines record.skeleton
  { id := qualifiedKey record.path name
    path := record.path
    symbol := name
    kind := none
    startLine := 1
    endLine := UInt32.ofNat (max lines.length 1)
    tokens := tokens (record.path ++ " " ++ record.skeleton)
    preview :=
      previewOf (((lines.map Text.trim).find? fun line => !line.isEmpty).getD "") }

/-- The chunks of a symbol and its members. -/
def chunksOfSymbol (path : String) (symbol : Symbol) : List Chunk :=
  symbolChunk path symbol none ::
    symbol.methods.map fun method => symbolChunk path method (some symbol)

/-- The chunks of a record in order of declaration; a file without symbols is one chunk. -/
def chunksOf (record : Record) : List Chunk :=
  match record.symbols.flatMap (chunksOfSymbol record.path) with
  | [] => [fileChunk record]
  | chunks => chunks

end CodeIndex.Search
