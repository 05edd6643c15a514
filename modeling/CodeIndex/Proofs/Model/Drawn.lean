import CodeIndex.Proofs.Graph.History
import CodeIndex.Proofs.Model.Reached
import CodeIndex.Proofs.Model.Views

/-!
Contract: the graph of every model that can be reached is that of its records.

Owns:
- `Model.Drawn.perform`: every action keeps the graph in step with the records;
- `Model.drawn_reached`: so does every history;
- `Model.agrees_of_undated`: models with the same records agree, apart from times.

Two files can share the key of a symbol if a path has a `#` in it. Paths that came in somewhere must
not have one; which these are can be told from the history.
-/

set_option autoImplicit false

namespace CodeIndex

namespace Graph

/-- Taking out several files, a graph loses just these. -/
theorem Presents.foldl_remove {graph : Graph} {files : String → Option Contents}
    (presents : Presents graph files) (paths : List String) :
    Presents (paths.foldl Graph.remove graph) fun path =>
      if path ∈ paths then none else files path := by
  induction paths generalizing graph files with
  | nil => simpa using presents
  | cons first rest inductionHypothesis =>
      have later := inductionHypothesis (presents.remove first)
      have files_eq : (fun path => if path ∈ rest then none else setFile files first none path) =
          fun path => if path ∈ first :: rest then none else files path := by
        funext path
        by_cases same : first = path
        · subst same
          simp
        · have different : ¬ path = first := fun equal => same equal.symm
          simp [setFile_other files none same, different]
      rw [files_eq] at later
      exact later

/-- There is nothing to take out of a graph without files. -/
theorem foldl_remove_empty (limit : Nat) (paths : List String) :
    paths.foldl Graph.remove (.empty limit) = .empty limit := by
  have nothing := (Presents.empty limit).foldl_remove paths
  simp only [ite_self] at nothing
  apply nothing.unique (Presents.empty limit)
  exact List.foldlRecOn (motive := fun current : Graph => current.fallbackLimit = limit) _ _ rfl
    fun current same path _ => (fallbackLimit_remove current path).trans same

/-- A graph without files presents records that are put in one after the other. -/
theorem Presents.foldl_update {graph : Graph} (presents : Presents graph fun _ => none)
    {records : Std.ExtTreeMap String Record}
    (own : ∀ (path : String) (record : Record), records[path]? = some record → record.path = path)
    (plain : ∀ path ∈ records, Plain path) :
    Presents (records.toList.foldl (fun built entry => built.update entry.2) graph)
      (filesOf records) := by
  let changes : List Change := records.toList.map fun entry => .update entry.2
  have listed : ∀ entry ∈ records.toList, records[entry.1]? = some entry.2 :=
    fun entry member => Std.ExtTreeMap.mem_toList_iff_getElem?_eq_some.mp member
  have plainChanges : PlainChanges changes := by
    intro record member
    obtain ⟨entry, isListed, made⟩ := List.mem_map.mp member
    injection made with made
    rw [← made, own _ _ (listed entry isListed)]
    apply plain
    rw [Std.ExtTreeMap.mem_iff_isSome_getElem?, listed entry isListed]
    rfl
  have noted : changes.foldl Change.note ∅ = records := by
    apply Std.ExtTreeMap.ext_getElem?
    intro path
    rw [List.foldl_map]
    refine foldl_toList_at records path (fun built entry => Change.note built (.update entry.2))
      (fun record built => built[path]? = record) (by simp) ?_ ?_
    · intro record built entry found foreign shown
      have away : ¬ entry.2.path = path := by rwa [own entry.1 entry.2 found]
      simpa [Change.note, Std.ExtTreeMap.getElem?_insert, away] using shown
    · intro record built found _
      simp [Change.note, own path record found]
  have nothing : Presents graph (filesOf ∅) := filesOf_empty ▸ presents
  have made := nothing.foldl changes plainChanges
  rw [noted, List.foldl_map] at made
  exact made

end Graph

namespace Model

/-! ## One action -/

theorem graph_foldl_removeFromViews (paths : List String) (model : Model) :
    (paths.foldl removeFromViews model).graph = paths.foldl Graph.remove model.graph := by
  induction paths generalizing model with
  | nil => rfl
  | cons first rest inductionHypothesis => exact inductionHypothesis (model.removeFromViews first)

/-- A model of kept state has no graph before its records are taken into the views. -/
theorem graph_reconcile_restored (workspace : Workspace) (config : Config) (state : State)
    (tree : FileTree) (enabled : Bool) :
    ((restored workspace config state enabled).reconcile tree).2.graph =
      .empty config.graph.fallbackCandidates :=
  (graph_foldl_removeFromViews _ _).trans (Graph.foldl_remove_empty _ _)

theorem graph_foldl_addToViews (entries : List (String × Record)) (model : Model) :
    (entries.foldl (fun built entry => built.addToViews entry.2) model).graph =
      entries.foldl (fun built entry => built.update entry.2) model.graph := by
  induction entries generalizing model with
  | nil => rfl
  | cons first rest inductionHypothesis =>
      rw [List.foldl_cons, inductionHypothesis, List.foldl_cons]
      dsimp only [addToViews]

namespace Drawn

variable {model : Model} (drawn : model.Drawn)

include drawn

theorem refresh {path : String} (tree : FileTree) (now : Timestamp)
    (plain : ¬ model.Unreadable tree path → Plain path) :
    (model.refresh tree path now).2.Drawn := by
  by_cases unreadable : model.Unreadable tree path
  · rw [refresh_eq_self unreadable]
    exact drawn
  · have spec := model.refresh_spec tree path now
    generalize (model.refresh tree path now).1 = status at spec
    generalize (model.refresh tree path now).2 = after at spec ⊢
    cases spec with
    | cached _ _ => exact drawn
    | failed _ => exact drawn
    | unchanged bytes old read found same =>
        exact drawn.retime found (Catalog.sets_refreshRecord model.catalog path old now)
    | indexed bytes read differs =>
        apply drawn.addToViews
        · rw [Record.path_ofBytes]
          exact plain unreadable
        · exact Catalog.sets_replace model.catalog _
    | removed missing =>
        exact drawn.removeFromViews (Catalog.sets_removeFile model.catalog path)

theorem apply (event : Event) : (model.apply event).Drawn := by
  unfold Model.apply
  split
  · exact drawn.removeFromViews (Catalog.sets_removeFile model.catalog event.path)
  · split
    · exact ⟨drawn.limit, drawn.graph⟩
    · exact drawn

theorem reconcile (tree : FileTree) : (model.reconcile tree).2.Drawn := by
  have graph : (model.reconcile tree).2.graph =
      (model.catalog.reconcile (model.listing tree)).1.foldl Graph.remove model.graph :=
    graph_foldl_removeFromViews _ _
  constructor
  case limit =>
    have config := (perform_frame model (.reconcile tree)).2
    dsimp only [Action.perform] at config
    rw [graph, config, ← drawn.limit]
    exact List.foldlRecOn (motive := fun current : Graph =>
      current.fallbackLimit = model.graph.fallbackLimit) _ _ rfl
      fun current same path _ => (Graph.fallbackLimit_remove current path).trans same
  case graph =>
    have files : Graph.filesOf (model.reconcile tree).2.catalog.records = fun path =>
        if path ∈ (model.catalog.reconcile (model.listing tree)).1 then none
        else Graph.filesOf model.catalog.records path := by
      funext path
      rw [catalog_reconcile, Graph.filesOf, Catalog.getElem?_records_reconcile]
      split <;> rfl
    rw [files, graph]
    exact drawn.graph.foldl_remove _

/-- The paths that an action brings in have to be plain, and so have those that are known. -/
theorem perform (exact : model.catalog.Exact)
    (known : ∀ path, model.catalog.Knows path → Plain path) (action : Action)
    (brings : ∀ path, action.Brings model.workspace path → Plain path) :
    (action.perform model).Drawn := by
  cases action with
  | getEntry tree path now =>
      apply drawn.refresh
      intro readable
      apply brings path
      refine ⟨rfl, ?_⟩
      rw [← Bool.not_eq_false]
      exact fun foreign => readable (Or.inr (Or.inl foreign))
  | reindex conditions =>
      have run : (model.reindex conditions).2.catalog.Exact ∧
          (∀ path, (model.reindex conditions).2.catalog.Knows path → Plain path) ∧
          (model.reindex conditions).2.Drawn := by
        refine reindex_induction (P := fun reached => reached.catalog.Exact ∧
          (∀ path, reached.catalog.Knows path → Plain path) ∧ reached.Drawn) (Q := Plain) ?_ ?_
          ⟨exact, known, drawn⟩
        · rintro reached stale ⟨_, allows, _⟩ listed
          exact allows stale (Or.inl ((Staleness.mem_listStale _ stale).mp listed))
        · rintro reached taken ⟨holds, allows, shown⟩ plain
          refine ⟨exact_refresh holds conditions.tree taken conditions.now, ?_,
            shown.refresh conditions.tree conditions.now fun _ => plain⟩
          intro other knows
          rcases knows_refresh holds knows with before | ⟨same, _⟩
          · exact allows other before
          · exact same ▸ plain
      exact run.2.2
  | apply event => exact drawn.apply event
  | reconcile tree => exact drawn.reconcile tree
  | reset => exact drawn_empty _ _ _

end Drawn

/-! ## Histories -/

/-- A graph without files comes to present all records. -/
theorem drawn_rebuildViews {model : Model}
    (limit : model.graph.fallbackLimit = model.config.graph.fallbackCandidates)
    (nothing : model.graph.Presents fun _ => none) (coherent : model.catalog.Coherent)
    (plain : ∀ path ∈ model.catalog.records, Plain path) : model.rebuildViews.Drawn := by
  obtain ⟨graph, search, frame⟩ := foldl_addToViews_frame model.catalog.records.toList model
  have built := graph_foldl_addToViews model.catalog.records.toList model
  rw [frame] at built
  rw [rebuildViews, frame]
  dsimp only at built
  constructor
  case limit =>
    dsimp only
    rw [built, ← limit]
    exact List.foldlRecOn (motive := fun current : Graph =>
      current.fallbackLimit = model.graph.fallbackLimit) _ _ rfl
      fun current same entry _ => (Graph.fallbackLimit_update current entry.2).trans same
  case graph =>
    dsimp only
    rw [built]
    exact nothing.foldl_update coherent.paths plain

theorem drawn_origin (workspace : Workspace) (config : Config) (origin : Origin) (enabled : Bool)
    (plain : ∀ path, origin.Brings workspace path → Plain path) :
    (origin.model workspace config enabled).Drawn := by
  cases origin with
  | new => exact drawn_empty workspace config enabled
  | kept state tree =>
      have exact : (restored workspace config state enabled).catalog.Exact :=
        Catalog.Exact.ofState _ _ enabled
      have coherent := (exact_perform exact (.reconcile tree)).coherent
      have frame := (perform_frame (restored workspace config state enabled) (.reconcile tree)).2
      have known : ∀ path,
          (ofState workspace config state tree enabled).catalog.Knows path → Plain path :=
        fun path => allowed_origin plain path
      dsimp only [Origin.model, Action.perform] at coherent frame ⊢
      rw [ofState_eq] at known ⊢
      rw [catalog_rebuildViews] at known
      have graph := graph_reconcile_restored workspace config state tree enabled
      apply drawn_rebuildViews
      · rw [frame, graph]
        rfl
      · rw [graph]
        exact Graph.Presents.empty _
      · exact coherent
      · exact fun path recorded => known path (Or.inr recorded)

/-- The graph of a model presents its records if the paths that came in are plain. -/
theorem drawn_reached (workspace : Workspace) (config : Config) (origin : Origin)
    (actions : List Action) (enabled : Bool)
    (plain : ∀ path, Brought workspace origin actions path → Plain path) :
    (reached workspace config origin actions enabled).Drawn := by
  have reaching : (reached workspace config origin actions enabled).workspace = workspace ∧
      (reached workspace config origin actions enabled).catalog.Exact ∧
      (∀ path, (reached workspace config origin actions enabled).catalog.Knows path →
        Plain path) ∧
      (reached workspace config origin actions enabled).Drawn := by
    refine List.foldlRecOn (motive := fun model : Model => model.workspace = workspace ∧
      model.catalog.Exact ∧ (∀ path, model.catalog.Knows path → Plain path) ∧ model.Drawn)
      actions _ ?_ ?_
    · have opened : ∀ path, origin.Brings workspace path → Plain path :=
        fun path brings => plain path (Or.inl brings)
      exact ⟨(reached_frame workspace config origin [] enabled).1,
        exact_reached workspace config origin [] enabled, allowed_origin opened,
        drawn_origin workspace config origin enabled opened⟩
    · rintro model ⟨same, exact, known, drawn⟩ action member
      have brings : ∀ path, action.Brings model.workspace path → Plain path :=
        fun path brought => plain path (Or.inr ⟨action, member, same ▸ brought⟩)
      exact ⟨(perform_frame model action).1.trans same, exact_perform exact action,
        allowed_perform exact known action brings, drawn.perform exact known action brings⟩
  exact reaching.2.2.2

/-! ## Agreement -/

theorem Aligned.chunks_undated {model : Model} (aligned : model.Aligned) (path : String) :
    model.search.chunksAt path =
      (model.catalog.records[path]?.map Record.undated).toList.flatMap Search.chunksOf := by
  rw [(aligned.shown path).chunks]
  cases model.catalog.records[path]? <;> rfl

/-- Models with the same records and graphs agree, whatever their search indexes know besides. -/
theorem Aligned.agrees {left right : Model} (leftAligned : left.Aligned)
    (rightAligned : right.Aligned) (graph : left.graph = right.graph)
    (records : ∀ path : String, left.catalog.records[path]?.map Record.undated =
      right.catalog.records[path]?.map Record.undated) : left.Agrees right where
  records := records
  graph := graph
  chunks := by
    intro path
    rw [leftAligned.chunks_undated, rightAligned.chunks_undated, records]

/-- The graphs are the same if both are those of the records. -/
theorem agrees_of_undated {left right : Model} (leftAligned : left.Aligned)
    (rightAligned : right.Aligned) (leftDrawn : left.Drawn) (rightDrawn : right.Drawn)
    (config : left.config = right.config)
    (records : ∀ path : String, left.catalog.records[path]?.map Record.undated =
      right.catalog.records[path]?.map Record.undated) : left.Agrees right :=
  leftAligned.agrees rightAligned (leftDrawn.graph_eq rightDrawn config records) records

end Model

end CodeIndex
