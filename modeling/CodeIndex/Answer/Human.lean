import CodeIndex.Answer.Basic
import CodeIndex.Decimal.Fixed

/-!
Contract: answers as text for people.

Owns:
- `Answer.human`: the text of an answer, given how many milliseconds it took.
-/

set_option autoImplicit false

namespace CodeIndex.Answer

/-- How many characters of a line are shown. -/
def lineWidth : Nat := 80

/-- A line that is not too long; dots stand for what is left out. -/
def shorten (line : String) : String :=
  let characters := line.toList
  if lineWidth < characters.length then
    String.ofList (characters.take (lineWidth - 3)) ++ "..."
  else
    line

/-- The number of a line, in a column of its own. -/
private def lineColumn (line : UInt32) : String :=
  String.ofList (Text.padLeft 4 ' ' (Text.digits line.toNat))

/-- A kind, in a column of its own. -/
private def kindColumn (kind : String) : String :=
  String.ofList (Text.padRight 9 ' ' kind.toList)

private def line (parts : List String) : String :=
  String.join parts ++ "\n"

private def statsLines (stats : ModelStats) : String :=
  String.join
    [line ["  Files:        ", Text.ofNat stats.records],
      line ["  Stale:        ", Text.ofNat stats.stale],
      line ["  Symbols:      ", Text.ofNat stats.graph.symbols],
      line ["  Call edges:   ", Text.ofNat stats.graph.callEdges],
      line ["  Import edges: ", Text.ofNat stats.graph.importEdges],
      line ["  Chunks:       ", Text.ofNat stats.chunks]]

private def indexLines (elapsed : Float) (report : Model.Report) : String :=
  line
    ["Indexed ", Text.ofNat report.indexed, " files (",
      Text.ofNat report.skipped, " unchanged, ",
      Text.ofNat report.removed, " removed, ",
      Text.ofNat report.failed, " failed) in ",
      Decimal.fixed 2 (elapsed / 1000.0), "s"] ++
  if report.cancelled then line ["  Cancelled before the stale set was drained"] else ""

private def symbolLines (symbol : Definition) : String :=
  line
    [symbol.path, ":", Text.ofNat symbol.line.toNat, "  ", symbol.kind.name, " ",
      symbol.qualifiedName, if symbol.exported then " (exported)" else ""] ++
  line ["   ", shorten symbol.signature]

private def referenceLine (reference : Reference) : String :=
  line
    [kindColumn reference.kind.name, " ", reference.path, ":",
      Text.ofNat reference.line.toNat]

private def importLine (entry : Import × Option String) : String :=
  line
    [lineColumn entry.1.line, "  ", if entry.1.typeOnly then "type " else "", entry.1.source,
      " \x7b ", Text.join ", " entry.1.names, " \x7d",
      match entry.2 with
      | some path => " -> " ++ path
      | none => ""]

private def exportLine (entry : Export) : String :=
  line
    [lineColumn entry.line, "  ", kindColumn entry.kind.name, " ", entry.name,
      match entry.source with
      | some source => " from " ++ source
      | none => ""]

/-- A hit with its number. -/
private def hitLines (number : Nat) (hit : Search.Hit) : String :=
  let chunk := hit.chunk
  let kind :=
    match chunk.kind with
    | some kind => kind.name
    | none => "file"
  line
    [Text.ofNat number, ". ", chunk.path, ":", Text.ofNat chunk.startLine.toNat, "-",
      Text.ofNat chunk.endLine.toNat, " (", Decimal.fixed 2 hit.score, ")"] ++
  line ["   ", kind, " ", chunk.symbol] ++
  (if chunk.preview.isEmpty then "" else line ["   ", shorten chunk.preview]) ++
  "\n"

/-- Hits with their numbers. -/
private def numberedHits : Nat → List Search.Hit → List String
  | _, [] => []
  | number, hit :: rest => hitLines number hit :: numberedHits (number + 1) rest

/-- The milliseconds that a search took. -/
private def searchTime (elapsed : Float) : String :=
  "(" ++ Decimal.fixed 1 elapsed ++ "ms)"

/-- The text of an answer, given how many milliseconds it took. -/
def human (elapsed : Float) : Answer → String
  | .index report numbers => indexLines elapsed report ++ statsLines numbers
  | .stats numbers => statsLines numbers
  | .symbols query found =>
      if found.isEmpty then
        line ["No symbols found for '", query, "'"]
      else
        line [Text.ofNat found.length, " symbols for '", query, "'\n"] ++
          String.join (found.map symbolLines)
  | .references name found =>
      if found.isEmpty then
        line ["No references to '", name, "'"]
      else
        line [Text.ofNat found.length, " references to '", name, "'\n"] ++
          String.join (found.map referenceLine)
  | .imports path statements =>
      if statements.isEmpty then line [path, " imports nothing"]
      else String.join (statements.map importLine)
  | .importers path paths =>
      if paths.isEmpty then line ["Nothing imports ", path]
      else String.join (paths.map fun importer => line [importer])
  | .exports path entries =>
      if entries.isEmpty then line [path, " exports nothing"]
      else String.join (entries.map exportLine)
  | .skeleton _ text =>
      match Text.stripEnd? "\n" text with
      | some _ => text
      | none => text ++ "\n"
  | .search query hits =>
      if hits.isEmpty then
        line ["No results found for '", query, "' ", searchTime elapsed]
      else
        line
          ["Found ", Text.ofNat hits.length, " results for '", query, "' ", searchTime elapsed,
            "\n"] ++
          String.join (numberedHits 1 hits)
  | .watching root files =>
      line ["Watching ", root, " (", Text.ofNat files, " files). Ctrl-C to stop."]

end CodeIndex.Answer
