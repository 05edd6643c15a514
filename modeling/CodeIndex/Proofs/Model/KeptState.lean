import CodeIndex.Proofs.Model.Drawn
import CodeIndex.Proofs.Model.Grounded
import Mathlib.Data.List.Basic

/-!
Contract: what a model of kept state finds if the records of the state are as the files are.

Owns:
- `State.Current`: the records of a state were made of listed files, as they are;
- `Model.mem_dirty_ofState`, `Model.knows_ofState`: what is stale when such a state is opened;
- `Model.drawing`, `Model.Depicts`: the graph of the listed files, and models that show them;
- `Model.depicts_ofState`: a model shows the files if there is a record of each.

If a path has a `#` in it, the graph can depend on the order in which records are put in. Restored
records are put in in the order of their paths.
-/

set_option autoImplicit false

namespace CodeIndex

/-- A graph does not show when a record was made. -/
theorem Graph.update_undated (graph : Graph) (record : Record) :
    graph.update record.undated = graph.update record := rfl

/-- The records of a state were made of listed files, as they are. -/
def State.Current (state : State) (workspace : Workspace) (tree : FileTree) : Prop :=
  ∀ (path : String) (record : Record), state.records[path]? = some record →
    path ∈ workspace.listFiles tree ∧
      ∃ bytes time, workspace.read tree path = .ok bytes ∧ record = Record.ofBytes path bytes time

namespace State.Current

variable {state : State} {workspace : Workspace} {tree : FileTree} {path : String}
  (current : state.Current workspace tree)

include current

theorem listed (recorded : path ∈ state.records) : path ∈ workspace.listFiles tree := by
  obtain ⟨record, kept⟩ := Option.isSome_iff_exists.mp
    (Std.ExtTreeMap.mem_iff_isSome_getElem?.mp recorded)
  exact (current path record kept).1

/-- A record is the one that would be made of its file. -/
theorem renewal_eq {record : Record} (kept : state.records[path]? = some record) :
    workspace.renewal tree path 0 none = some record.undated := by
  obtain ⟨_, bytes, time, read, rfl⟩ := current path record kept
  rw [Record.undated_ofBytes]
  exact Workspace.renewal_of_differs read (by simp) 0

end State.Current

namespace Model

/-! ## Models of kept state -/

theorem workspace_ofState (workspace : Workspace) (config : Config) (state : State)
    (tree : FileTree) : (ofState workspace config state tree).workspace = workspace := by
  obtain ⟨_, _, frame⟩ := ofState_frame workspace config state tree true
  rw [frame]

section Opened

variable {workspace : Workspace} {state : State} {tree : FileTree} {path : String}
  (current : state.Current workspace tree) (config : Config)

include current

theorem records_restored : (restored workspace config state).catalog.records = state.records := by
  apply Std.ExtTreeMap.ext_getElem?
  intro path
  dsimp only [restored]
  rw [Catalog.getElem?_records_ofState]
  cases kept : state.records[path]? with
  | none => rfl
  | some record =>
      obtain ⟨_, bytes, time, _, rfl⟩ := current path record kept
      simp [Option.filter]

theorem gone_restored :
    ((restored workspace config state).catalog.reconcile
      ((restored workspace config state).listing tree)).1 = [] := by
  have listed : ∀ path ∈ (restored workspace config state).catalog.records,
      path ∈ ((restored workspace config state).listing tree).map (·.1) := by
    intro path recorded
    rw [records_restored current] at recorded
    rw [mem_listing]
    exact current.listed recorded
  apply List.eq_nil_iff_forall_not_mem.mpr
  intro path gone
  obtain ⟨known, unlisted⟩ := (Catalog.mem_gone _ _ _).mp gone
  refine unlisted (listed path (known.elim (fun clean => ?_) id))
  rw [Std.ExtTreeMap.mem_iff_isSome_getElem?] at clean
  dsimp only [restored] at clean ⊢
  rw [Catalog.getElem?_lastClean_ofState] at clean
  split at clean
  · next recorded => exact recorded
  · exact absurd clean (by simp)

theorem catalog_ofState :
    (ofState workspace config state tree).catalog =
      { (restored workspace config state).catalog with
        staleness := ((restored workspace config state).catalog.staleness.reconcile
          ((restored workspace config state).listing tree)).2 } := by
  obtain ⟨_, _, frame⟩ := ofState_frame workspace config state tree true
  rw [frame]
  exact Catalog.reconcile_of_present _ _ (gone_restored current config)

theorem records_ofState :
    (ofState workspace config state tree).catalog.records = state.records := by
  rw [catalog_ofState current]
  exact records_restored current config

/-- A listed file is stale unless it has a record and was clean when it was last modified, or
later. -/
theorem mem_dirty_ofState :
    path ∈ (ofState workspace config state tree).catalog.staleness.dirty ↔
      path ∈ workspace.listFiles tree ∧
        ∀ clean, path ∈ state.records → state.clean[path]? = some clean →
          ¬ (workspace.modified? tree path).getD Int64.maxValue ≤ clean := by
  have quiet := not_mem_dirty_restored workspace config state true path
  have times : ∀ clean,
      (restored workspace config state).catalog.staleness.lastClean[path]? = some clean ↔
        path ∈ state.records ∧ state.clean[path]? = some clean := by
    intro clean
    have records := records_restored current config
    dsimp only [restored] at records ⊢
    rw [Catalog.getElem?_lastClean_ofState, records]
    by_cases recorded : path ∈ state.records <;> simp [recorded, Staleness.ofEntries]
  have present : ∀ time, (path, time) ∈ (restored workspace config state).listing tree ↔
      path ∈ workspace.listFiles tree ∧
        time = (workspace.modified? tree path).getD Int64.maxValue := by
    intro time
    simp only [listing, List.mem_map, Prod.mk.injEq]
    constructor
    · rintro ⟨_, listed, rfl, same⟩
      exact ⟨listed, same.symm⟩
    · rintro ⟨listed, same⟩
      exact ⟨path, listed, rfl, same.symm⟩
  have stays : ¬ path ∈ (restored workspace config state).catalog.staleness.vanished
      ((restored workspace config state).listing tree) := by
    intro vanished
    have gone := (Staleness.mem_vanished _ _ _).mp vanished
    have member := (Catalog.mem_gone (restored workspace config state).catalog
      ((restored workspace config state).listing tree) path).mpr ⟨Or.inl gone.1, gone.2⟩
    rw [gone_restored current] at member
    exact absurd member (by simp)
  rw [catalog_ofState current, Staleness.mem_dirty_reconcile_of_present _ _ _ stays]
  simp only [quiet, times, present, false_or, and_imp]
  constructor
  · rintro ⟨_, ⟨listed, same⟩, late⟩
    exact ⟨listed, same ▸ late⟩
  · rintro ⟨listed, late⟩
    exact ⟨_, ⟨listed, rfl⟩, late⟩

theorem knows_ofState :
    (ofState workspace config state tree).catalog.Knows path ↔
      path ∈ workspace.listFiles tree := by
  unfold Catalog.Knows
  rw [mem_dirty_ofState current, records_ofState current]
  constructor
  · rintro (⟨listed, _⟩ | recorded)
    · exact listed
    · exact current.listed recorded
  · intro listed
    by_cases recorded : path ∈ state.records
    · exact Or.inr recorded
    · exact Or.inl ⟨listed, fun _ known => absurd known recorded⟩

end Opened

/-! ## The graph of the files -/

/-- The graph of the listed files as they are, put in in the order of their paths. -/
def drawing (workspace : Workspace) (config : Config) (tree : FileTree) : Graph :=
  ((Std.ExtTreeSet.ofList (workspace.listFiles tree)).toList.filterMap fun path =>
    workspace.renewal tree path 0 none).foldl Graph.update
      (.empty config.graph.fallbackCandidates)

/-- The keys of a map are in the order of a set with the same members. -/
theorem keys_eq_toList {records : Std.ExtTreeMap String Record} {paths : List String}
    (same : ∀ path, path ∈ records ↔ path ∈ paths) :
    records.keys = (Std.ExtTreeSet.ofList paths).toList := by
  have keysDistinct : records.keys.Nodup :=
    Std.ExtTreeMap.distinct_keys.imp Std.ReflCmp.ne_of_cmp_ne_eq
  have listDistinct : (Std.ExtTreeSet.ofList paths).toList.Nodup :=
    Std.ExtTreeSet.distinct_toList.imp Std.ReflCmp.ne_of_cmp_ne_eq
  have members : records.keys.Perm (Std.ExtTreeSet.ofList paths).toList := by
    rw [List.perm_ext_iff_of_nodup keysDistinct listDistinct]
    intro path
    rw [Std.ExtTreeMap.mem_keys, same, Std.ExtTreeSet.mem_toList, Std.ExtTreeSet.mem_ofList,
      List.contains_iff_mem]
  apply members.eq_of_pairwise _ Std.ExtTreeMap.ordered_keys Std.ExtTreeSet.ordered_toList
  intro first second _ _ before after
  rw [Std.OrientedCmp.gt_of_lt before] at after
  exact absurd after (by simp)

section Graphs

variable {workspace : Workspace} {state : State} {tree : FileTree}
  (current : state.Current workspace tree) (config : Config)

include current

/-- Restored records are put into the graph in the order of their paths. -/
theorem graph_ofState :
    (ofState workspace config state tree).graph =
      state.records.toList.foldl (fun built entry => built.update entry.2)
        (.empty config.graph.fallbackCandidates) := by
  have records := records_ofState current config
  rw [ofState_eq, catalog_rebuildViews] at records
  rw [ofState_eq, rebuildViews, graph_foldl_addToViews, graph_reconcile_restored, records]

/-- If they are those of all listed files, the graph is that of the files. -/
theorem graph_ofState_eq_drawing
    (covers : ∀ path ∈ workspace.listFiles tree, path ∈ state.records) :
    (ofState workspace config state tree).graph = drawing workspace config tree := by
  have same : ∀ path, path ∈ state.records ↔ path ∈ workspace.listFiles tree :=
    fun path => ⟨current.listed, covers path⟩
  have made : ∀ entry ∈ state.records.toList,
      workspace.renewal tree entry.1 0 none = some entry.2.undated := by
    intro entry member
    exact current.renewal_eq (Std.ExtTreeMap.mem_toList_iff_getElem?_eq_some.mp member)
  have inOrder : state.records.keys.filterMap (fun path => workspace.renewal tree path 0 none) =
      state.records.toList.map fun entry => entry.2.undated := by
    rw [← Std.ExtTreeMap.map_fst_toList_eq_keys, List.filterMap_map,
      List.filterMap_eq_map_iff_forall_eq_some]
    intro entry member
    rw [Function.comp_apply, made entry member]
  rw [graph_ofState current, drawing, ← keys_eq_toList same, inOrder, List.foldl_map]
  simp only [Graph.update_undated]

end Graphs

/-! ## Models that show the files -/

/-- A model shows the listed files as they are. -/
structure Depicts (workspace : Workspace) (config : Config) (tree : FileTree) (model : Model) :
    Prop where
  aligned : model.Aligned
  records : ∀ path, model.undatedAt path =
    if path ∈ workspace.listFiles tree then workspace.renewal tree path 0 none else none
  graph : model.graph = drawing workspace config tree

theorem Depicts.agrees {workspace : Workspace} {config : Config} {tree : FileTree}
    {left right : Model} (leftDepicts : Depicts workspace config tree left)
    (rightDepicts : Depicts workspace config tree right) : left.Agrees right := by
  apply leftDepicts.aligned.agrees rightDepicts.aligned
  · rw [leftDepicts.graph, rightDepicts.graph]
  · exact fun path => (leftDepicts.records path).trans (rightDepicts.records path).symm

section Shown

variable {workspace : Workspace} {state : State} {tree : FileTree}
  (current : state.Current workspace tree) (config : Config)

include current

/-- With the records of all listed files, a model shows them when it is opened. -/
theorem depicts_ofState (covers : ∀ path ∈ workspace.listFiles tree, path ∈ state.records) :
    Depicts workspace config tree (ofState workspace config state tree) where
  aligned := aligned_ofState workspace config state tree true
  records := by
    intro path
    rw [undatedAt, records_ofState current]
    cases kept : state.records[path]? with
    | none =>
        rw [if_neg, Option.map_none]
        intro listed
        have recorded := Std.ExtTreeMap.mem_iff_isSome_getElem?.mp (covers path listed)
        rw [kept] at recorded
        exact absurd recorded (by simp)
    | some record =>
        rw [if_pos (current path record kept).1, Option.map_some, current.renewal_eq kept]
  graph := graph_ofState_eq_drawing current config covers

theorem grounded_ofState
    (readable : ∀ path ∈ workspace.listFiles tree, ∃ bytes, workspace.read tree path = .ok bytes) :
    Grounded tree (ofState workspace config state tree) := by
  have same := workspace_ofState workspace config state tree
  constructor
  case readable =>
    intro path knows
    have listed := (knows_ofState current config).mp knows
    apply readable_of_read (enabled_ofState workspace config state tree true)
      (Workspace.indexable_of_mem_listFiles listed)
    rw [same]
    exact Or.inl (readable path listed)
  case made =>
    intro path record found recorded read _
    rw [same] at read
    rw [records_ofState current] at recorded
    obtain ⟨_, bytes, time, readAgain, rfl⟩ := current path record recorded
    obtain rfl := Except.ok.inj (read.symm.trans readAgain)
    exact Record.undated_ofBytes path found time
  case clean =>
    intro path record recorded
    rw [records_ofState current] at recorded
    obtain ⟨_, bytes, time, read, rfl⟩ := current path record recorded
    rw [same]
    exact Or.inr ⟨bytes, read, Record.fingerprint_ofBytes path bytes time⟩

end Shown

end Model

end CodeIndex
