import CodeIndex.Answer.Basic
import CodeIndex.Graph.Codec
import CodeIndex.Json.Write
import CodeIndex.Search.Codec

/-!
Contract: answers as JSON.

Owns:
- the JSON of reports and of the numbers that describe a model;
- `Answer.json`: the text of an answer, given how many milliseconds it took.
-/

set_option autoImplicit false

namespace CodeIndex

def ModelStats.toJson (stats : ModelStats) : Json :=
  .record
    [("records", .ofNat stats.records),
      ("stale", .ofNat stats.stale),
      ("chunks", .ofNat stats.chunks),
      ("graph", stats.graph.toJson)]

def Model.Report.toJson (report : Model.Report) : Json :=
  .record
    [("indexed", .ofNat report.indexed),
      ("failed", .ofNat report.failed),
      ("skipped", .ofNat report.skipped),
      ("removed", .ofNat report.removed),
      ("cancelled", .bool report.cancelled)]

namespace Answer

/-- The members of an import and the file that it leads to. -/
private def importJson (entry : Import × Option String) : Json :=
  let resolved :=
    match entry.2 with
    | some path => Json.ofText path
    | none => .null
  match entry.1.toJson with
  | .object members => .object (members ++ [(some "resolved", resolved)])
  | other => other

/-- The JSON value of an answer. -/
def toJson (elapsed : Float) : Answer → Json
  | .index report numbers =>
      .record
        [("report", report.toJson), ("stats", numbers.toJson), ("elapsedMs", .ofFloat elapsed)]
  | .stats numbers => numbers.toJson
  | .symbols query found =>
      .record
        [("query", .ofText query), ("symbols", .array (found.map Definition.toJson))]
  | .references name found =>
      .record
        [("name", .ofText name), ("references", .array (found.map Reference.toJson))]
  | .imports path statements =>
      .record [("path", .ofText path), ("imports", .array (statements.map importJson))]
  | .importers path paths =>
      .record [("path", .ofText path), ("importers", .ofTexts paths)]
  | .exports path entries =>
      .record [("path", .ofText path), ("exports", .array (entries.map Export.toJson))]
  | .skeleton path text =>
      .record [("path", .ofText path), ("skeleton", .ofText text)]
  | .search query hits =>
      .record
        [("query", .ofText query),
          ("hits", .array (hits.map Search.Hit.toJson)),
          ("elapsedMs", .ofFloat elapsed)]
  | .watching root files =>
      .record [("root", .ofText root), ("files", .ofNat files)]

/-- The text of an answer as JSON, given how many milliseconds it took. -/
def json (elapsed : Float) (answer : Answer) : String :=
  (answer.toJson elapsed).pretty ++ "\n"

end Answer

end CodeIndex
