import CodeIndex.Catalog.Entry
import CodeIndex.Event
import CodeIndex.Graph.Query
import CodeIndex.Graph.Update
import CodeIndex.Search.Rank
import CodeIndex.State

/-!
Contract: an index of a workspace with the views that are derived from it.

Owns:
- `Model`: the catalog of records, the symbol graph and the search index;
- `Model.ofState`: a model from kept state, compared with the files;
- `Model.refresh`, `Model.getEntry`: one file brought up to date in all three;
- `Model.apply`: what a reported change does;
- `Model.state`: what is kept for the next run.

Does not own: how all stale files are brought up to date.
-/

set_option autoImplicit false

namespace CodeIndex

/-- The index of a workspace. -/
structure Model where
  workspace : Workspace
  config : Config
  catalog : Catalog
  graph : Graph
  search : Search.Index

/-- The numbers that describe a model. -/
structure ModelStats where
  records : Nat
  stale : Nat
  chunks : Nat
  graph : GraphStats
  deriving DecidableEq, Repr

namespace Model

/-- A model without records. It is told whether files can be parsed. -/
def empty (workspace : Workspace) (config : Config) (enabled : Bool := true) : Model :=
  { workspace := workspace
    config := config
    catalog := .empty enabled
    graph := .empty config.graph.fallbackCandidates
    search := .empty config.search.stopWordWeight }

/-! ## Views -/

/-- Takes a record into the views. -/
def addToViews (model : Model) (record : Record) : Model :=
  { model with
    graph := model.graph.update record
    search := (model.search.update record).2 }

/-- Takes a file out of the views. -/
def removeFromViews (model : Model) (path : String) : Model :=
  { model with
    graph := model.graph.remove path
    search := model.search.remove path }

/-! ## Whole workspaces -/

/-- The files of the workspace with the times of their last changes. A file whose time cannot be
told counts as just changed. -/
def listing (model : Model) (tree : FileTree) : List (String × Timestamp) :=
  (model.workspace.listFiles tree).map fun path =>
    (path, (model.workspace.modified? tree path).getD Int64.maxValue)

/-- Compares with the files and drops what is gone. Gives the files that are gone. -/
def reconcile (model : Model) (tree : FileTree) : List String × Model :=
  let (gone, catalog) := model.catalog.reconcile (model.listing tree)
  (gone, gone.foldl removeFromViews { model with catalog := catalog })

/-- Takes all records into the views, in the order of their paths. -/
def rebuildViews (model : Model) : Model :=
  model.catalog.records.toList.foldl (fun built entry => built.addToViews entry.2) model

/-- A model from kept state, compared with the files. -/
def ofState (workspace : Workspace) (config : Config) (state : State) (tree : FileTree)
    (enabled : Bool := true) : Model :=
  let restored :=
    { empty workspace config with
      catalog := .ofState state.records (.ofEntries state.clean) enabled
      search := .empty config.search.stopWordWeight state.fingerprints }
  (restored.reconcile tree).2.rebuildViews

/-- Forgets everything. -/
def reset (model : Model) : Model :=
  empty model.workspace model.config model.catalog.enabled

/-! ## Single files -/

/-- What came of bringing a file up to date. -/
inductive Status where
  | unchanged
  | indexed
  | removed
  | failed
  deriving DecidableEq, Repr

/-- Brings a file up to date, in the catalog and then in the views. -/
def refresh (model : Model) (tree : FileTree) (path : String) (now : Timestamp) :
    Status × Model :=
  let (outcome, catalog) := model.catalog.getEntry model.workspace tree path now
  let changed := { model with catalog := catalog }
  match outcome with
  | .cached _ => (.unchanged, changed)
  | .refreshed _ => (.unchanged, changed)
  | .reindexed record _ => (.indexed, changed.addToViews record)
  | .removed _ => (.removed, changed.removeFromViews path)
  | .absent => (.failed, changed)

/-- The record of a file, brought up to date if it can be. -/
def getEntry (model : Model) (tree : FileTree) (path : String) (now : Timestamp) :
    Option Record × Model :=
  let refreshed := (model.refresh tree path now).2
  (refreshed.catalog.record? path, refreshed)

/-- The text of a file with function bodies collapsed. -/
def skeleton (model : Model) (tree : FileTree) (path : String) (now : Timestamp) :
    Option String × Model :=
  let (record, refreshed) := model.getEntry tree path now
  (record.map (·.skeleton), refreshed)

/-- Takes note of a reported change. -/
def apply (model : Model) (event : Event) : Model :=
  match event.kind with
  | .deleted =>
      let catalog := (model.catalog.removeFile event.path).2
      { model with catalog := catalog }.removeFromViews event.path
  | _ =>
      if model.workspace.isIndexable event.path then
        { model with catalog := model.catalog.markDirty event.path }
      else
        model

/-! ## State and numbers -/

/-- What is kept for the next run. -/
def state (model : Model) : State :=
  { clean := model.catalog.staleness.entries
    records := model.catalog.records
    fingerprints := model.search.fingerprints }

def isStale (model : Model) (path : String) : Bool :=
  model.catalog.isStale path

def stats (model : Model) : ModelStats :=
  { records := model.catalog.records.size
    stale := model.catalog.staleness.staleCount
    chunks := model.search.chunks.size
    graph := model.graph.stats }

end Model

end CodeIndex
