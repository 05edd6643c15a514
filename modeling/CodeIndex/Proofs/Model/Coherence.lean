import CodeIndex.Proofs.Catalog.Reconcile
import CodeIndex.Proofs.Graph.Outline
import CodeIndex.Proofs.Model.Refresh
import CodeIndex.Proofs.Search

/-!
Contract: catalog, graph and search index of a model are of the same files.

Owns:
- `Model.ViewsShow`: what the views have of one path, for a record or for none;
- `Model.Aligned`: they show the records of the catalog, path by path;
- `Model.Action`, `Model.Origin`: all ways to get a model and to change it;
- `Model.views_cohere`: every model that can be reached is aligned.

Does not own: what the graph says of symbols and calls.

The search index skips an update if it knows the fingerprint and has chunks of the file. Kept
fingerprints can belong to anything, so a known fingerprint alone says nothing; with chunks, it is
that of the record they were made from.
-/

set_option autoImplicit false

namespace CodeIndex

namespace Model

/-! ## One path -/

/-- What the views have of a path with the given record, or without one. -/
structure ViewsShow (graph : Graph) (search : Search.Index) (path : String)
    (record : Option Record) : Prop where
  outline : graph.outline path = .ofRecord record
  chunks : search.chunksAt path = record.toList.flatMap Search.chunksOf
  fingerprint : ∀ kept, record = some kept →
    search.fingerprints[path]? = some kept.fingerprint

namespace ViewsShow

variable {graph : Graph} {search : Search.Index} {path other : String} {record : Option Record}

theorem remove_self (shown : ViewsShow graph search path record) :
    ViewsShow (graph.remove path) (search.remove path) path none where
  outline := by rw [Graph.outline_remove shown.outline, if_pos rfl]
  chunks := by rw [Search.Index.chunksAt_remove, if_pos rfl]; rfl
  fingerprint := by simp

theorem remove_other {removed : Option Record} (here : ViewsShow graph search path removed)
    (different : ¬ path = other) (shown : ViewsShow graph search other record) :
    ViewsShow (graph.remove path) (search.remove path) other record where
  outline := by rw [Graph.outline_remove here.outline, if_neg different, shown.outline]
  chunks := by rw [Search.Index.chunksAt_remove, if_neg different, shown.chunks]
  fingerprint := by
    intro kept isKept
    rw [Search.Index.fingerprints_remove, Std.ExtTreeMap.getElem?_erase,
      ← shown.fingerprint kept isKept]
    simp [different]

/-- A new record is taken in: either the path had none, and so no chunks, or the fingerprint of the
one before is known. -/
theorem update_self {new : Record} (shown : ViewsShow graph search new.path record)
    (differs : ∀ old, record = some old → ¬ old.fingerprint = new.fingerprint) :
    ViewsShow (graph.update new) (search.update new).2 new.path (some new) := by
  have stale : ¬ (search.fingerprints[new.path]? = some new.fingerprint ∧
      search.containsFile new.path = true) := by
    rintro ⟨known, present⟩
    rw [Search.Index.containsFile_iff, shown.chunks] at present
    cases record with
    | none => exact present rfl
    | some old =>
        rw [shown.fingerprint old rfl, Option.some.injEq] at known
        exact differs old rfl known
  constructor
  case outline => rw [Graph.outline_update, if_pos rfl]
  case chunks =>
    rw [Search.Index.chunksAt_update stale, if_pos rfl]
    simp
  case fingerprint =>
    rintro kept isKept
    rw [Search.Index.fingerprints_update stale, if_pos rfl, Option.some.inj isKept]

theorem update_other {new : Record} (different : ¬ new.path = other)
    (shown : ViewsShow graph search other record) :
    ViewsShow (graph.update new) (search.update new).2 other record := by
  have outline : (graph.update new).outline other = .ofRecord record := by
    rw [Graph.outline_update, if_neg different, shown.outline]
  by_cases known : search.fingerprints[new.path]? = some new.fingerprint ∧
      search.containsFile new.path = true
  · rw [Search.Index.update_of_known known]
    exact ⟨outline, shown.chunks, shown.fingerprint⟩
  · constructor
    case outline => exact outline
    case chunks => rw [Search.Index.chunksAt_update known, if_neg different, shown.chunks]
    case fingerprint =>
      intro kept isKept
      rw [Search.Index.fingerprints_update known, if_neg different]
      exact shown.fingerprint kept isKept

/-- The time of a record does not show in the views. -/
theorem retime {old : Record} (shown : ViewsShow graph search path (some old)) (now : Timestamp) :
    ViewsShow graph search path (some { old with lastIndexed := now }) where
  outline := shown.outline
  chunks := shown.chunks
  fingerprint := by
    intro kept isKept
    rw [← Option.some.inj isKept]
    exact shown.fingerprint old rfl

end ViewsShow

/-! ## All paths -/

/-- The views show the records of the catalog, each of which is kept under its own path. -/
structure Aligned (model : Model) : Prop where
  own : ∀ (path : String) (record : Record),
    model.catalog.records[path]? = some record → record.path = path
  shown : ∀ path, ViewsShow model.graph model.search path model.catalog.records[path]?

namespace Aligned

theorem empty (workspace : Workspace) (config : Config) (enabled : Bool) :
    (Model.empty workspace config enabled).Aligned where
  own := by simp [Model.empty, Catalog.empty]
  shown := by
    intro path
    constructor
    case outline => exact Graph.outline_empty _ path
    case chunks => simp [Model.empty, Search.Index.empty, Search.Index.chunksAt, Catalog.empty]
    case fingerprint => simp [Model.empty, Catalog.empty]

section Steps

variable {model : Model} (aligned : model.Aligned)

include aligned

theorem removeFromViews {path : String} {catalog : Catalog}
    (sets : Catalog.Sets path none model.catalog catalog) :
    ({ model with catalog := catalog }.removeFromViews path).Aligned := by
  constructor
  case own =>
    intro other record (found : catalog.records[other]? = some record)
    by_cases same : path = other
    · rw [← same, sets.self] at found
      exact absurd found (by simp)
    · exact aligned.own other record ((sets.others other same).symm.trans found)
  case shown =>
    intro other
    dsimp only [Model.removeFromViews]
    by_cases same : path = other
    · subst same
      rw [sets.self]
      exact (aligned.shown path).remove_self
    · rw [sets.others other same]
      exact (aligned.shown path).remove_other same (aligned.shown other)

theorem addToViews {record : Record} {catalog : Catalog}
    (sets : Catalog.Sets record.path (some record) model.catalog catalog)
    (differs : ∀ old, model.catalog.records[record.path]? = some old →
      ¬ old.fingerprint = record.fingerprint) :
    ({ model with catalog := catalog }.addToViews record).Aligned := by
  constructor
  case own =>
    intro other kept (found : catalog.records[other]? = some kept)
    by_cases same : record.path = other
    · rw [← same, sets.self] at found
      rw [← Option.some.inj found, same]
    · exact aligned.own other kept ((sets.others other same).symm.trans found)
  case shown =>
    intro other
    dsimp only [Model.addToViews]
    by_cases same : record.path = other
    · subst same
      rw [sets.self]
      exact (aligned.shown record.path).update_self differs
    · rw [sets.others other same]
      exact (aligned.shown other).update_other same

theorem retime {path : String} {old : Record} {now : Timestamp} {catalog : Catalog}
    (found : model.catalog.records[path]? = some old)
    (sets : Catalog.Sets path (some { old with lastIndexed := now }) model.catalog catalog) :
    { model with catalog := catalog }.Aligned := by
  constructor
  case own =>
    intro other record (kept : catalog.records[other]? = some record)
    by_cases same : path = other
    · rw [← same, sets.self] at kept
      rw [← Option.some.inj kept, ← same]
      exact aligned.own path old found
    · exact aligned.own other record ((sets.others other same).symm.trans kept)
  case shown =>
    intro other
    by_cases same : path = other
    · subst same
      have shown := aligned.shown path
      rw [found] at shown
      rw [sets.self]
      exact shown.retime now
    · rw [sets.others other same]
      exact aligned.shown other

theorem refresh (tree : FileTree) (path : String) (now : Timestamp) :
    (model.refresh tree path now).2.Aligned := by
  have spec := model.refresh_spec tree path now
  generalize (model.refresh tree path now).1 = status at spec
  generalize (model.refresh tree path now).2 = after at spec ⊢
  cases spec with
  | cached _ _ => exact aligned
  | failed _ => exact aligned
  | unchanged bytes old read found same =>
      exact aligned.retime found (Catalog.sets_refreshRecord model.catalog path old now)
  | indexed bytes read differs =>
      apply aligned.addToViews (Catalog.sets_replace model.catalog _)
      rw [Record.path_ofBytes, Record.fingerprint_ofBytes]
      exact differs
  | removed missing =>
      exact aligned.removeFromViews (Catalog.sets_removeFile model.catalog path)

theorem reindex (conditions : Conditions) : (model.reindex conditions).2.Aligned :=
  reindex_induction (Q := fun _ => True) (fun _ _ _ _ => trivial)
    (fun _ path holds _ => holds.refresh conditions.tree path conditions.now) aligned

theorem apply (event : Event) : (model.apply event).Aligned := by
  unfold Model.apply
  split
  · exact aligned.removeFromViews (Catalog.sets_removeFile model.catalog event.path)
  · split
    · exact ⟨aligned.own, aligned.shown⟩
    · exact aligned

end Steps

/-! ## Whole workspaces -/

end Aligned

/-- Only the views change when files are taken out of them. -/
theorem foldl_removeFromViews_frame (paths : List String) (model : Model) :
    ∃ graph search, paths.foldl removeFromViews model =
      { model with graph := graph, search := search } := by
  induction paths generalizing model with
  | nil => exact ⟨_, _, rfl⟩
  | cons first rest inductionHypothesis =>
      obtain ⟨graph, search, later⟩ := inductionHypothesis (model.removeFromViews first)
      exact ⟨graph, search, by rw [List.foldl_cons, later, removeFromViews]⟩

theorem foldl_addToViews_frame (entries : List (String × Record)) (model : Model) :
    ∃ graph search, entries.foldl (fun built entry => built.addToViews entry.2) model =
      { model with graph := graph, search := search } := by
  induction entries generalizing model with
  | nil => exact ⟨_, _, rfl⟩
  | cons first rest inductionHypothesis =>
      obtain ⟨graph, search, later⟩ := inductionHypothesis (model.addToViews first.2)
      exact ⟨graph, search, by rw [List.foldl_cons, later, addToViews]⟩

theorem catalog_reconcile (model : Model) (tree : FileTree) :
    (model.reconcile tree).2.catalog = (model.catalog.reconcile (model.listing tree)).2 := by
  obtain ⟨_, _, frame⟩ := foldl_removeFromViews_frame
    (model.catalog.reconcile (model.listing tree)).1
    { model with catalog := (model.catalog.reconcile (model.listing tree)).2 }
  exact congrArg Model.catalog frame

theorem catalog_rebuildViews (model : Model) : model.rebuildViews.catalog = model.catalog := by
  obtain ⟨_, _, frame⟩ := foldl_addToViews_frame model.catalog.records.toList model
  rw [rebuildViews, frame]

/-- Taking out several files, the views lose just these. -/
theorem foldl_removeFromViews_shows (paths : List String) (model : Model)
    (look : String → Option Record)
    (shown : ∀ path, ViewsShow model.graph model.search path (look path)) (path : String) :
    ViewsShow (paths.foldl removeFromViews model).graph (paths.foldl removeFromViews model).search
      path (if path ∈ paths then none else look path) := by
  induction paths generalizing model look with
  | nil => simpa using shown path
  | cons first rest inductionHypothesis =>
      have once : ∀ other, ViewsShow (model.graph.remove first) (model.search.remove first) other
          (if other = first then none else look other) := by
        intro other
        by_cases same : other = first
        · rw [if_pos same, same]
          exact (shown first).remove_self
        · rw [if_neg same]
          exact (shown first).remove_other (fun equal => same equal.symm) (shown other)
      have later := inductionHypothesis (model.removeFromViews first) _ once
      by_cases same : path = first <;> simpa [same] using later

/-- What is gone from the catalog is gone from the views. -/
theorem reconcile_shows (model : Model) (tree : FileTree) (look : String → Option Record)
    (shown : ∀ path, ViewsShow model.graph model.search path (look path)) (path : String) :
    ViewsShow (model.reconcile tree).2.graph (model.reconcile tree).2.search path
      (if path ∈ (model.catalog.reconcile (model.listing tree)).1 then none else look path) :=
  foldl_removeFromViews_shows (model.catalog.reconcile (model.listing tree)).1
    { model with catalog := (model.catalog.reconcile (model.listing tree)).2 } look shown path

theorem Aligned.reconcile {model : Model} (aligned : model.Aligned) (tree : FileTree) :
    (model.reconcile tree).2.Aligned := by
  have records := Catalog.getElem?_records_reconcile model.catalog (model.listing tree)
  constructor
  case own =>
    intro path record found
    rw [catalog_reconcile, records] at found
    split at found
    · exact absurd found (by simp)
    · exact aligned.own path record found
  case shown =>
    intro path
    rw [catalog_reconcile, records]
    exact model.reconcile_shows tree _ aligned.shown path

/-- Views without anything come to show all records, if these are kept under their own paths. -/
theorem aligned_rebuildViews (model : Model)
    (own : ∀ (path : String) (record : Record),
      model.catalog.records[path]? = some record → record.path = path)
    (nothing : ∀ path, ViewsShow model.graph model.search path none) :
    model.rebuildViews.Aligned := by
  constructor
  case own =>
    rw [catalog_rebuildViews]
    exact own
  case shown =>
    intro path
    rw [catalog_rebuildViews]
    apply foldl_toList_at model.catalog.records path
      (fun (built : Model) (entry : String × Record) => built.addToViews entry.2)
      (fun record built => ViewsShow built.graph built.search path record) (nothing path)
    · intro record current entry kept foreign shown
      have away : ¬ entry.2.path = path := by rwa [own entry.1 entry.2 kept]
      dsimp only [addToViews]
      exact shown.update_other away
    · intro record current found shown
      have here := own path record found
      dsimp only [addToViews]
      rw [← here] at shown ⊢
      exact shown.update_self (by simp)

/-- A model of kept state, before it is compared with the files. -/
def restored (workspace : Workspace) (config : Config) (state : State) (enabled : Bool := true) :
    Model :=
  { empty workspace config with
    catalog := .ofState state.records (.ofEntries state.clean) enabled
    search := .empty config.search.stopWordWeight state.fingerprints }

theorem ofState_eq (workspace : Workspace) (config : Config) (state : State) (tree : FileTree)
    (enabled : Bool) :
    ofState workspace config state tree enabled =
      ((restored workspace config state enabled).reconcile tree).2.rebuildViews := rfl

theorem ofState_frame (workspace : Workspace) (config : Config) (state : State)
    (tree : FileTree) (enabled : Bool) :
    ∃ graph search, ofState workspace config state tree enabled =
      { workspace := workspace
        config := config
        catalog :=
          ((restored workspace config state enabled).catalog.reconcile
            ((restored workspace config state enabled).listing tree)).2
        graph := graph
        search := search } := by
  obtain ⟨_, _, removed⟩ := foldl_removeFromViews_frame
    ((restored workspace config state enabled).catalog.reconcile
      ((restored workspace config state enabled).listing tree)).1
    { restored workspace config state enabled with
      catalog := ((restored workspace config state enabled).catalog.reconcile
        ((restored workspace config state enabled).listing tree)).2 }
  obtain ⟨_, _, built⟩ := foldl_addToViews_frame
    ((restored workspace config state enabled).reconcile tree).2.catalog.records.toList
    ((restored workspace config state enabled).reconcile tree).2
  rw [ofState_eq, rebuildViews, built, reconcile]
  dsimp only
  rw [removed]
  exact ⟨_, _, rfl⟩

theorem enabled_ofState (workspace : Workspace) (config : Config) (state : State)
    (tree : FileTree) (enabled : Bool) :
    (ofState workspace config state tree enabled).catalog.enabled = enabled := by
  obtain ⟨_, _, frame⟩ := ofState_frame workspace config state tree enabled
  rw [frame]
  exact (Catalog.enabled_reconcile _ _).trans (Catalog.enabled_ofState _ _ enabled)

theorem aligned_ofState (workspace : Workspace) (config : Config) (state : State)
    (tree : FileTree) (enabled : Bool) :
    (ofState workspace config state tree enabled).Aligned := by
  -- Before the views are rebuilt, they have nothing but the kept fingerprints.
  have nothing : ∀ path, ViewsShow (restored workspace config state enabled).graph
      (restored workspace config state enabled).search path none := by
    intro path
    refine ⟨Graph.outline_empty _ path, ?_, by simp⟩
    simp [restored, Search.Index.empty, Search.Index.chunksAt]
  rw [ofState_eq]
  apply aligned_rebuildViews
  · intro path record found
    rw [catalog_reconcile, Catalog.getElem?_records_reconcile] at found
    split at found
    · exact absurd found (by simp)
    · have kept : (Catalog.ofState state.records (.ofEntries state.clean) enabled).records[path]? =
          some record := found
      rw [Catalog.getElem?_records_ofState, Option.filter_eq_some_iff] at kept
      exact (of_decide_eq_true kept.2).symm
  · intro path
    simpa using (restored workspace config state enabled).reconcile_shows tree _ nothing path

/-! ## Histories -/

/-- How a model is come by: without anything, or from kept state of whatever content. -/
inductive Origin where
  | new
  | kept (state : State) (tree : FileTree)

/-- The model that is come by. It is told whether files can be parsed. -/
def Origin.model (workspace : Workspace) (config : Config) (origin : Origin)
    (enabled : Bool := true) : Model :=
  match origin with
  | .new => empty workspace config enabled
  | .kept state tree => ofState workspace config state tree enabled

/-- What can be done to a model; the files may be others each time. -/
inductive Action where
  | getEntry (tree : FileTree) (path : String) (now : Timestamp)
  | reindex (conditions : Conditions)
  | apply (event : Event)
  | reconcile (tree : FileTree)
  | reset

def Action.perform (model : Model) : Action → Model
  | .getEntry tree path now => (model.getEntry tree path now).2
  | .reindex conditions => (model.reindex conditions).2
  | .apply event => model.apply event
  | .reconcile tree => (model.reconcile tree).2
  | .reset => model.reset

theorem Aligned.perform {model : Model} (aligned : model.Aligned) (action : Action) :
    (action.perform model).Aligned := by
  cases action with
  | getEntry tree path now => exact aligned.refresh tree path now
  | reindex conditions => exact aligned.reindex conditions
  | apply event => exact aligned.apply event
  | reconcile tree => exact aligned.reconcile tree
  | reset => exact Aligned.empty model.workspace model.config model.catalog.enabled

/-- Whatever a model began with and whatever was done to it, and whether or not files can be parsed:
the files with a record, the files of the graph and the files with chunks are the same; and of each
of them, the record is kept under its own path, the graph has its imports and exports, and the
search index has its chunks in order and its fingerprint. -/
theorem views_cohere (workspace : Workspace) (config : Config) (origin : Origin)
    (enabled : Bool) (actions : List Action) :
    let model := actions.foldl Action.perform (origin.model workspace config enabled)
    (∀ path : String, (path ∈ model.catalog.records ↔ model.graph.containsFile path = true) ∧
      (path ∈ model.catalog.records ↔ ∃ chunk ∈ model.search.chunks, chunk.path = path)) ∧
    ∀ (path : String) (record : Record), model.catalog.records[path]? = some record →
      record.path = path ∧
      model.graph.imports[path]? = some record.imports ∧
      model.graph.exports[path]? = some record.exports ∧
      model.search.chunks.toList.filter (fun chunk => chunk.path == path) =
        Search.chunksOf record ∧
      model.search.fingerprints[path]? = some record.fingerprint := by
  intro model
  have start : (origin.model workspace config enabled).Aligned := by
    cases origin with
    | new => exact Aligned.empty workspace config enabled
    | kept state tree => exact aligned_ofState workspace config state tree enabled
  have aligned : model.Aligned :=
    List.foldlRecOn (motive := Aligned) actions _ start
      fun _ reached action _ => reached.perform action
  constructor
  · intro path
    have shown := aligned.shown path
    have inGraph : model.graph.containsFile path = model.catalog.records[path]?.isSome :=
      congrArg Graph.Outline.present shown.outline
    have inSearch := Search.Index.containsFile_iff model.search path
    rw [Search.Index.containsFile, Array.any_eq_true', shown.chunks] at inSearch
    rw [Std.ExtTreeMap.mem_iff_isSome_getElem?, inGraph]
    refine ⟨Iff.rfl, ?_⟩
    simp only [beq_iff_eq] at inSearch
    rw [inSearch]
    cases model.catalog.records[path]? with
    | none => simp
    | some record => simp [Search.chunksOf_ne_nil]
  · intro path record found
    have shown := aligned.shown path
    rw [found] at shown
    refine ⟨aligned.own path record found, ?_, ?_, ?_, shown.fingerprint record rfl⟩
    · exact congrArg Graph.Outline.imports shown.outline
    · exact congrArg Graph.Outline.exports shown.outline
    · exact shown.chunks.trans (by simp)

end Model

end CodeIndex
