import CodeIndex.Proofs.Graph.Linked
import CodeIndex.Proofs.Model.Refresh
import CodeIndex.Proofs.Search

/-!
Contract: the views of a model show its records.

Owns:
- `Model.Drawn`: the graph is that of the records in the catalog;
- `Model.Viewed`: so is the search index;
- `Model.Viewed.refresh`, `Model.Viewed.apply`: they stay so;
- `Model.Agrees`: two models say the same of every file, apart from times.
-/

set_option autoImplicit false

namespace CodeIndex

/-! ## Records without their times -/

namespace Record

/-- A record without the time at which it was made. -/
def undated (record : Record) : Record :=
  { record with lastIndexed := 0 }

theorem undated_ofBytes (path : String) (bytes : ByteArray) (now : Timestamp) :
    (ofBytes path bytes now).undated = ofBytes path bytes 0 :=
  ofBytes_with_lastIndexed path bytes now 0

end Record

/-- The times of records do not show in what files hold. -/
theorem Graph.filesOf_undated (records : Std.ExtTreeMap String Record) (path : String) :
    filesOf records path = (records[path]?.map Record.undated).map Contents.ofRecord := by
  rw [filesOf, Option.map_map]
  rfl

theorem Search.Index.Holds.chunks_undated {index : Search.Index}
    {records : Std.ExtTreeMap String Record} (holds : index.Holds records) (path : String) :
    index.chunksAt path = (records[path]?.map Record.undated).toList.flatMap chunksOf := by
  rw [holds.chunks]
  cases records[path]? <;> rfl

namespace Model

/-! ## Views of records -/

/-- The graph presents the records of the catalog. -/
structure Drawn (model : Model) : Prop where
  limit : model.graph.fallbackLimit = model.config.graph.fallbackCandidates
  graph : model.graph.Presents (Graph.filesOf model.catalog.records)

/-- The graph presents the records of the catalog, and the search index holds their chunks. -/
structure Viewed (model : Model) : Prop extends Drawn model where
  search : model.search.Holds model.catalog.records

theorem drawn_empty (workspace : Workspace) (config : Config) (enabled : Bool) :
    (empty workspace config enabled).Drawn where
  limit := rfl
  graph := by
    have nothing : Graph.filesOf (empty workspace config enabled).catalog.records =
        fun _ => none := Graph.filesOf_empty
    rw [nothing]
    exact Graph.Presents.empty _

theorem viewed_empty (workspace : Workspace) (config : Config) :
    (empty workspace config).Viewed :=
  ⟨drawn_empty workspace config true, Search.Index.holds_empty _⟩

namespace Drawn

variable {model : Model} (drawn : model.Drawn) {path : String} {catalog : Catalog}

include drawn

theorem removeFromViews (sets : Catalog.Sets path none model.catalog catalog) :
    ({ model with catalog := catalog }.removeFromViews path).Drawn where
  limit := by
    dsimp only [Model.removeFromViews]
    rw [Graph.fallbackLimit_remove, drawn.limit]
  graph := by
    have files : Graph.filesOf catalog.records =
        Graph.setFile (Graph.filesOf model.catalog.records) path none :=
      Graph.filesOf_set sets.self sets.others
    dsimp only [Model.removeFromViews]
    rw [files]
    exact drawn.graph.remove path

theorem addToViews {record : Record} (plain : Plain record.path)
    (sets : Catalog.Sets record.path (some record) model.catalog catalog) :
    ({ model with catalog := catalog }.addToViews record).Drawn where
  limit := by
    dsimp only [Model.addToViews]
    rw [Graph.fallbackLimit_update, drawn.limit]
  graph := by
    have files : Graph.filesOf catalog.records =
        Graph.setFile (Graph.filesOf model.catalog.records) record.path
          (some (Contents.ofRecord record)) :=
      Graph.filesOf_set sets.self sets.others
    dsimp only [Model.addToViews]
    rw [files]
    exact drawn.graph.update plain

/-- The time of a record does not show in the graph. -/
theorem retime {old : Record} {now : Timestamp} (found : model.catalog.records[path]? = some old)
    (sets : Catalog.Sets path (some { old with lastIndexed := now }) model.catalog catalog) :
    { model with catalog := catalog }.Drawn where
  limit := drawn.limit
  graph := by
    have files : Graph.filesOf catalog.records = Graph.filesOf model.catalog.records := by
      funext other
      unfold Graph.filesOf
      by_cases same : path = other
      · rw [← same, sets.self, found]
        rfl
      · rw [sets.others other same]
    have presents := drawn.graph
    rw [← files] at presents
    exact presents

end Drawn

namespace Viewed

variable {model : Model} (viewed : model.Viewed) {path : String} {catalog : Catalog}

include viewed

theorem removeFromViews (sets : Catalog.Sets path none model.catalog catalog) :
    ({ model with catalog := catalog }.removeFromViews path).Viewed :=
  ⟨viewed.toDrawn.removeFromViews sets, viewed.search.remove sets.others sets.self⟩

theorem addToViews {record : Record} (plain : Plain record.path)
    (sets : Catalog.Sets record.path (some record) model.catalog catalog)
    (differs : ∀ old, model.catalog.records[record.path]? = some old →
      ¬ old.fingerprint = record.fingerprint) :
    ({ model with catalog := catalog }.addToViews record).Viewed :=
  ⟨viewed.toDrawn.addToViews plain sets,
    viewed.search.update sets.others rfl sets.self differs⟩

/-- The time of a record does not show in the views. -/
theorem retime {old : Record} {now : Timestamp} (found : model.catalog.records[path]? = some old)
    (sets : Catalog.Sets path (some { old with lastIndexed := now }) model.catalog catalog) :
    { model with catalog := catalog }.Viewed :=
  ⟨viewed.toDrawn.retime found sets, viewed.search.retime sets.others found sets.self⟩

/-- Bringing one file up to date keeps the views in step. -/
theorem refresh (tree : FileTree) (now : Timestamp)
    (plain : ∀ bytes, model.workspace.read tree path = .ok bytes → Plain path) :
    (model.refresh tree path now).2.Viewed := by
  have spec := model.refresh_spec tree path now
  generalize (model.refresh tree path now).1 = status at spec
  generalize (model.refresh tree path now).2 = after at spec ⊢
  cases spec with
  | cached _ _ => exact viewed
  | failed _ => exact viewed
  | unchanged bytes old read found same =>
      exact viewed.retime found (Catalog.sets_refreshRecord model.catalog path old now)
  | indexed bytes read differs =>
      apply viewed.addToViews
      · rw [Record.path_ofBytes]
        exact plain bytes read
      · exact Catalog.sets_replace model.catalog _
      · rw [Record.path_ofBytes, Record.fingerprint_ofBytes]
        exact differs
  | removed missing =>
      exact viewed.removeFromViews (Catalog.sets_removeFile model.catalog path)

theorem apply (event : Event) : (model.apply event).Viewed := by
  unfold Model.apply
  split
  · exact viewed.removeFromViews (Catalog.sets_removeFile model.catalog event.path)
  · split
    · exact ⟨⟨viewed.limit, viewed.graph⟩, viewed.search⟩
    · exact viewed

end Viewed

/-! ## Agreement -/

/-- Two models say the same of every file, whenever their records were made. -/
structure Agrees (left right : Model) : Prop where
  records : ∀ path : String,
    left.catalog.records[path]?.map Record.undated =
      right.catalog.records[path]?.map Record.undated
  graph : left.graph = right.graph
  chunks : ∀ path, left.search.chunksAt path = right.search.chunksAt path

theorem Drawn.graph_eq {left right : Model} (leftDrawn : left.Drawn) (rightDrawn : right.Drawn)
    (config : left.config = right.config)
    (records : ∀ path : String, left.catalog.records[path]?.map Record.undated =
      right.catalog.records[path]?.map Record.undated) : left.graph = right.graph := by
  have files : Graph.filesOf left.catalog.records = Graph.filesOf right.catalog.records := by
    funext path
    rw [Graph.filesOf_undated, Graph.filesOf_undated, records]
  have rightPresents := rightDrawn.graph
  rw [← files] at rightPresents
  apply leftDrawn.graph.unique rightPresents
  rw [leftDrawn.limit, rightDrawn.limit, config]

/-- The views agree where the records do. -/
theorem Viewed.agrees {left right : Model} (leftViewed : left.Viewed) (rightViewed : right.Viewed)
    (config : left.config = right.config)
    (records : ∀ path : String, left.catalog.records[path]?.map Record.undated =
      right.catalog.records[path]?.map Record.undated) : left.Agrees right := by
  constructor
  case records => exact records
  case graph => exact leftViewed.graph_eq rightViewed.toDrawn config records
  case chunks =>
    intro path
    rw [leftViewed.search.chunks_undated, rightViewed.search.chunks_undated, records]

end Model

end CodeIndex
