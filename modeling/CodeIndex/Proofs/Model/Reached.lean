import CodeIndex.Proofs.Catalog.Comparison
import CodeIndex.Proofs.Model.Coherence
import CodeIndex.Proofs.Workspace

/-!
Contract: the models that can be reached, and the paths they know of.

Owns:
- `Model.reached`: the model that a history leads to;
- `Model.exact_reached`, `Model.graph_reached`: what holds of the catalog and of the graph of each;
- `Catalog.Knows`: a path has a record or is stale;
- `Model.Brought`, `Model.brought_of_knows`: the paths that a model knows of came in somewhere;
- `Model.dated_reached`: a record is stale, or there is a time at which it was clean.

Files become known when they are listed, asked for or reported. A run over the stale files brings in
nothing: what it marks has a record.
-/

set_option autoImplicit false

namespace CodeIndex

namespace Model

/-- The model that a history leads to. Files can be parsed unless it is said that they cannot. -/
def reached (workspace : Workspace) (config : Config) (origin : Origin) (actions : List Action)
    (enabled : Bool := true) : Model :=
  actions.foldl Action.perform (origin.model workspace config enabled)

theorem reached_append (workspace : Workspace) (config : Config) (origin : Origin)
    (earlier later : List Action) :
    reached workspace config origin (earlier ++ later) =
      later.foldl Action.perform (reached workspace config origin earlier) :=
  List.foldl_append

/-! ## Parts that never change -/

theorem apply_frame (model : Model) (event : Event) :
    (model.apply event).workspace = model.workspace ∧
      (model.apply event).config = model.config := by
  unfold apply
  split
  · exact ⟨rfl, rfl⟩
  · split <;> exact ⟨rfl, rfl⟩

theorem perform_frame (model : Model) (action : Action) :
    (action.perform model).workspace = model.workspace ∧
      (action.perform model).config = model.config := by
  cases action with
  | getEntry tree path now =>
      exact ⟨workspace_refresh model tree path now, config_refresh model tree path now⟩
  | reindex conditions =>
      exact ⟨workspace_reindex model conditions, config_reindex model conditions⟩
  | apply event => exact apply_frame model event
  | reconcile tree =>
      obtain ⟨_, _, frame⟩ := foldl_removeFromViews_frame
        (model.catalog.reconcile (model.listing tree)).1
        { model with catalog := (model.catalog.reconcile (model.listing tree)).2 }
      dsimp only [Action.perform, Model.reconcile]
      rw [frame]
      exact ⟨rfl, rfl⟩
  | reset => exact ⟨rfl, rfl⟩

theorem reached_frame (workspace : Workspace) (config : Config) (origin : Origin)
    (actions : List Action) (enabled : Bool) :
    (reached workspace config origin actions enabled).workspace = workspace ∧
      (reached workspace config origin actions enabled).config = config := by
  refine List.foldlRecOn (motive := fun model : Model =>
    model.workspace = workspace ∧ model.config = config) actions _ ?_ ?_
  · cases origin with
    | new => exact ⟨rfl, rfl⟩
    | kept state tree =>
        obtain ⟨_, _, frame⟩ := ofState_frame workspace config state tree enabled
        exact ⟨congrArg Model.workspace frame, congrArg Model.config frame⟩
  · rintro model ⟨sameWorkspace, sameConfig⟩ action _
    obtain ⟨workspaceKept, configKept⟩ := perform_frame model action
    exact ⟨workspaceKept.trans sameWorkspace, configKept.trans sameConfig⟩

theorem enabled_perform (model : Model) (action : Action) :
    (action.perform model).catalog.enabled = model.catalog.enabled := by
  cases action with
  | getEntry tree path now => exact enabled_refresh model tree path now
  | reindex conditions => exact enabled_reindex model conditions
  | apply event =>
      dsimp only [Action.perform, apply]
      split
      · exact (Catalog.sets_removeFile model.catalog event.path).enabled
      · split <;> rfl
  | reconcile tree =>
      dsimp only [Action.perform]
      rw [catalog_reconcile]
      exact Catalog.enabled_reconcile model.catalog _
  | reset => rfl

/-- Whether files can be parsed is decided at the start. -/
theorem enabled_reached (workspace : Workspace) (config : Config) (origin : Origin)
    (actions : List Action) (enabled : Bool) :
    (reached workspace config origin actions enabled).catalog.enabled = enabled := by
  refine List.foldlRecOn (motive := fun model : Model => model.catalog.enabled = enabled)
    actions _ ?_ fun model kept action _ => (enabled_perform model action).trans kept
  cases origin with
  | new => rfl
  | kept state tree => exact enabled_ofState workspace config state tree enabled

/-! ## Catalogs and graphs -/

theorem catalog_refresh (model : Model) (tree : FileTree) (path : String) (now : Timestamp) :
    (model.refresh tree path now).2.catalog =
      (model.catalog.getEntry model.workspace tree path now).2 := by
  unfold refresh
  generalize model.catalog.getEntry model.workspace tree path now = entry
  obtain ⟨outcome, catalog⟩ := entry
  cases outcome <;> rfl

theorem exact_refresh {model : Model} (exact : model.catalog.Exact) (tree : FileTree)
    (path : String) (now : Timestamp) : (model.refresh tree path now).2.catalog.Exact := by
  rw [catalog_refresh]
  exact exact.getEntry _ tree path now

theorem exact_perform {model : Model} (exact : model.catalog.Exact) (action : Action) :
    (action.perform model).catalog.Exact := by
  cases action with
  | getEntry tree path now => exact exact_refresh exact tree path now
  | reindex conditions =>
      exact reindex_induction (P := fun reached => reached.catalog.Exact) (Q := fun _ => True)
        (fun _ _ _ _ => trivial)
        (fun reached path holds _ => exact_refresh holds conditions.tree path conditions.now)
        exact
  | apply event =>
      dsimp only [Action.perform, apply]
      split
      · exact exact.removeFile event.path
      · split
        · exact exact.with_staleness _
        · exact exact
  | reconcile tree =>
      dsimp only [Action.perform]
      rw [catalog_reconcile]
      exact exact.reconcile _
  | reset => exact Catalog.Exact.empty model.catalog.enabled

theorem exact_ofState (workspace : Workspace) (config : Config) (state : State)
    (tree : FileTree) (enabled : Bool) :
    (ofState workspace config state tree enabled).catalog.Exact := by
  obtain ⟨_, _, frame⟩ := ofState_frame workspace config state tree enabled
  rw [frame]
  exact (Catalog.Exact.ofState _ _ enabled).reconcile _

theorem exact_reached (workspace : Workspace) (config : Config) (origin : Origin)
    (actions : List Action) (enabled : Bool) :
    (reached workspace config origin actions enabled).catalog.Exact := by
  refine List.foldlRecOn (motive := fun model : Model => model.catalog.Exact) actions _ ?_
    fun _ exact action _ => exact_perform exact action
  cases origin with
  | new => exact Catalog.Exact.empty enabled
  | kept state tree => exact exact_ofState workspace config state tree enabled

theorem aligned_reached (workspace : Workspace) (config : Config) (origin : Origin)
    (actions : List Action) (enabled : Bool) :
    (reached workspace config origin actions enabled).Aligned := by
  refine List.foldlRecOn (motive := Aligned) actions _ ?_ fun _ aligned action _ =>
    aligned.perform action
  cases origin with
  | new => exact Aligned.empty workspace config enabled
  | kept state tree => exact aligned_ofState workspace config state tree enabled

section Graphs

variable {P : Graph → Prop} (empty : ∀ limit, P (.empty limit))
  (update : ∀ graph record, P graph → P (graph.update record))
  (remove : ∀ graph path, P graph → P (graph.remove path))

include update remove in
theorem graph_refresh {model : Model} (holds : P model.graph) (tree : FileTree) (path : String)
    (now : Timestamp) : P (model.refresh tree path now).2.graph := by
  have spec := model.refresh_spec tree path now
  generalize (model.refresh tree path now).1 = status at spec
  generalize (model.refresh tree path now).2 = after at spec ⊢
  cases spec with
  | cached _ _ => exact holds
  | failed _ => exact holds
  | unchanged _ _ _ _ _ => exact holds
  | indexed bytes _ _ =>
      dsimp only [addToViews]
      exact update _ _ holds
  | removed _ =>
      dsimp only [removeFromViews]
      exact remove _ _ holds

include remove in
theorem graph_reconcile {model : Model} (holds : P model.graph) (tree : FileTree) :
    P (model.reconcile tree).2.graph := by
  refine List.foldlRecOn (motive := fun model : Model => P model.graph) _ _ holds ?_
  intro reached kept path _
  dsimp only [removeFromViews]
  exact remove _ _ kept

include empty update remove in
theorem graph_perform {model : Model} (holds : P model.graph) (action : Action) :
    P (action.perform model).graph := by
  cases action with
  | getEntry tree path now => exact graph_refresh update remove holds tree path now
  | reindex conditions =>
      exact reindex_induction (P := fun reached => P reached.graph) (Q := fun _ => True)
        (fun _ _ _ _ => trivial)
        (fun reached path kept _ =>
          graph_refresh update remove kept conditions.tree path conditions.now) holds
  | apply event =>
      dsimp only [Action.perform, apply]
      split
      · dsimp only [removeFromViews]
        exact remove _ _ holds
      · split <;> exact holds
  | reconcile tree => exact graph_reconcile remove holds tree
  | reset => exact empty _

include empty update remove in
/-- What holds of a graph without files and is kept by every change holds of the graph of every
model. -/
theorem graph_reached (workspace : Workspace) (config : Config) (origin : Origin)
    (actions : List Action) (enabled : Bool) :
    P (reached workspace config origin actions enabled).graph := by
  refine List.foldlRecOn (motive := fun model : Model => P model.graph) actions _ ?_
    fun _ holds action _ => graph_perform empty update remove holds action
  cases origin with
  | new => exact empty _
  | kept state tree =>
      have reconciled : P ((restored workspace config state enabled).reconcile tree).2.graph :=
        graph_reconcile remove (empty _) tree
      refine List.foldlRecOn (motive := fun model : Model => P model.graph) _ _ reconciled ?_
      intro built holds entry _
      dsimp only [addToViews]
      exact update _ _ holds

end Graphs

end Model

/-! ## Known paths -/

namespace Catalog

/-- A path has a record or is stale. -/
def Knows (catalog : Catalog) (path : String) : Prop :=
  path ∈ catalog.staleness.dirty ∨ path ∈ catalog.records

/-- A record is stale, or there is a time at which it was clean. -/
def Dated (catalog : Catalog) : Prop :=
  ∀ path ∈ catalog.records, path ∈ catalog.staleness.dirty ∨ path ∈ catalog.staleness.lastClean

namespace Sets

variable {path : String} {record : Option Record} {before after : Catalog}
  (sets : Sets path record before after)

include sets

/-- What becomes stale has a record, so no other path becomes known or is forgotten. -/
theorem knows (coherent : after.Coherent) (other : String) :
    after.Knows other ↔ (path = other ∧ record.isSome) ∨ (¬ path = other ∧ before.Knows other) := by
  unfold Knows
  rw [mem_records_iff, mem_records_iff]
  by_cases same : path = other
  · subst same
    simp [sets.clean, sets.self]
  · simp only [same, false_and, false_or, not_false_iff, true_and, sets.others other same]
    constructor
    · rintro (dirty | recorded)
      · rcases sets.marked other dirty with already | ⟨_, importer⟩
        · exact Or.inl already
        · have recorded := coherent.isSome_of_mem_importersOf importer
          rw [sets.others other same] at recorded
          exact Or.inr recorded
      · exact Or.inr recorded
    · exact Or.imp_left (sets.kept other same)

theorem dated (dated : before.Dated) : after.Dated := by
  intro other recorded
  rw [mem_records_iff] at recorded
  by_cases same : path = other
  · subst same
    rw [sets.self] at recorded
    exact Or.inr (sets.selfClean.mpr recorded)
  · rw [sets.others other same, ← mem_records_iff] at recorded
    exact (dated other recorded).imp (sets.kept other same) (sets.othersClean other same).mpr

end Sets

section Reconcile

variable {catalog : Catalog} {files : List (String × Timestamp)} {path : String}

/-- After a comparison, what is known of and not listed was stale and never clean. -/
theorem dirty_of_knows_reconcile (exact : catalog.Exact) (unlisted : ¬ path ∈ files.map (·.1))
    (known : (catalog.reconcile files).2.Knows path) :
    path ∈ catalog.staleness.dirty ∧ ¬ path ∈ catalog.staleness.lastClean := by
  rcases known with stale | recorded
  · exact (mem_dirty_reconcile_of_unlisted files exact unlisted).mp stale
  · rw [mem_records_iff, getElem?_records_reconcile_of_listing, if_neg unlisted] at recorded
    exact absurd recorded (by simp)

/-- What a catalog knows of after a comparison with the files is listed, unless it was stale. -/
theorem listed_of_knows_reconcile (exact : catalog.Exact)
    (known : (catalog.reconcile files).2.Knows path) :
    path ∈ catalog.staleness.dirty ∨ path ∈ files.map (·.1) := by
  by_cases listed : path ∈ files.map (·.1)
  · exact Or.inr listed
  · exact Or.inl (dirty_of_knows_reconcile exact listed known).1

theorem dated_reconcile (catalog : Catalog) (files : List (String × Timestamp)) :
    (catalog.reconcile files).2.Dated := by
  intro path recorded
  have listed : path ∈ files.map (·.1) := by
    rw [mem_records_iff, getElem?_records_reconcile_of_listing] at recorded
    split at recorded
    · next listed => exact listed
    · exact absurd recorded (by simp)
  cases clean : catalog.staleness.lastClean[path]? with
  | none =>
      obtain ⟨⟨_, time⟩, member, rfl⟩ := List.mem_map.mp listed
      exact Or.inl (mem_dirty_reconcile catalog files _ member (by simp [clean]))
  | some time =>
      right
      rw [Std.ExtTreeMap.mem_iff_isSome_getElem?, getElem?_lastClean_reconcile_of_listing,
        if_pos listed, clean]
      rfl

end Reconcile

end Catalog

namespace Model

/-! ### One action -/

section Perform

variable {model : Model}

theorem knows_refresh (exact : model.catalog.Exact) {tree : FileTree} {path other : String}
    {now : Timestamp} (known : (model.refresh tree path now).2.catalog.Knows other) :
    model.catalog.Knows other ∨
      (path = other ∧ (Language.ofPath path).isIndexable = true) := by
  rcases model.refresh_eq_self_or_spreads tree path now with same | ⟨readable, spreads⟩
  · rw [same] at known
    exact Or.inl known
  · have indexable : (Language.ofPath path).isIndexable = true := by
      rw [← Bool.not_eq_false]
      exact fun foreign => readable (Or.inr (Or.inl foreign))
    have coherent := (exact_refresh exact tree path now).coherent
    rcases (spreads.sets.knows coherent other).mp known with ⟨same, _⟩ | ⟨_, before⟩
    · exact Or.inr ⟨same, indexable⟩
    · exact Or.inl before

/-- A file that is deleted is forgotten. -/
theorem knows_apply (exact : model.catalog.Exact) (event : Event) (path : String) :
    (model.apply event).catalog.Knows path ↔
      if event.kind = .deleted then ¬ event.path = path ∧ model.catalog.Knows path
      else (event.path = path ∧ model.workspace.isIndexable path = true) ∨
        model.catalog.Knows path := by
  obtain ⟨kind, changed⟩ := event
  by_cases deleted : kind = .deleted
  · subst deleted
    have sets := Catalog.sets_removeFile model.catalog changed
    dsimp only [apply, removeFromViews]
    rw [sets.knows (exact.removeFile changed).coherent path]
    simp
  · rw [apply_of_there _ deleted, if_neg deleted]
    unfold Catalog.Knows
    rw [Catalog.mem_dirty_note, Catalog.records_note, or_assoc]
    by_cases same : changed = path <;> simp [same]

theorem mem_listing (model : Model) (tree : FileTree) (path : String) :
    path ∈ (model.listing tree).map (·.1) ↔ path ∈ model.workspace.listFiles tree := by
  simp [listing]

theorem dated_perform (dated : model.catalog.Dated) (action : Action) :
    (action.perform model).catalog.Dated := by
  have refreshed : ∀ (reached : Model) (tree : FileTree) (path : String) (now : Timestamp),
      reached.catalog.Dated → (reached.refresh tree path now).2.catalog.Dated := by
    intro reached tree path now holds
    rcases reached.refresh_eq_self_or_spreads tree path now with same | ⟨_, spreads⟩
    · rw [same]
      exact holds
    · exact spreads.sets.dated holds
  cases action with
  | getEntry tree path now => exact refreshed model tree path now dated
  | reindex conditions =>
      exact reindex_induction (P := fun reached => reached.catalog.Dated) (Q := fun _ => True)
        (fun _ _ _ _ => trivial)
        (fun reached path holds _ => refreshed reached conditions.tree path conditions.now holds)
        dated
  | apply event =>
      dsimp only [Action.perform, apply]
      split
      · exact (Catalog.sets_removeFile model.catalog event.path).dated dated
      · split
        · intro path recorded
          exact (dated path recorded).imp_left fun dirty =>
            (Staleness.mem_dirty_markDirty _ _ _).mpr (Or.inr dirty)
        · exact dated
  | reconcile tree =>
      dsimp only [Action.perform]
      rw [catalog_reconcile]
      exact Catalog.dated_reconcile _ _
  | reset =>
      intro path recorded
      exact absurd recorded (by simp [Action.perform, Model.reset, Model.empty, Catalog.empty])

end Perform

/-! ### Histories -/

/-- The paths that a model knows of from the start. -/
def Origin.Brings (workspace : Workspace) : Origin → String → Prop
  | .new, _ => False
  | .kept _ tree, path => path ∈ workspace.listFiles tree

/-- The paths that a model may come to know of by an action. -/
def Action.Brings (workspace : Workspace) : Action → String → Prop
  | .getEntry _ asked _, path => asked = path ∧ (Language.ofPath path).isIndexable = true
  | .apply event, path => event.path = path ∧ workspace.isIndexable path = true
  | .reconcile tree, path => path ∈ workspace.listFiles tree
  | .reindex _, _ => False
  | .reset, _ => False

/-- A path has come in with a history. -/
def Brought (workspace : Workspace) (origin : Origin) (actions : List Action) (path : String) :
    Prop :=
  origin.Brings workspace path ∨ ∃ action ∈ actions, action.Brings workspace path

theorem Brought.indexable {workspace : Workspace} {origin : Origin} {actions : List Action}
    {path : String} (brought : Brought workspace origin actions path) :
    (Language.ofPath path).isIndexable = true := by
  rcases brought with opened | ⟨action, _, later⟩
  · cases origin with
    | new => exact absurd opened id
    | kept state tree => exact Workspace.indexable_of_mem_listFiles opened
  · cases action with
    | getEntry tree asked now => exact later.2
    | apply event => exact Workspace.indexable_of_isIndexable later.2
    | reconcile tree => exact Workspace.indexable_of_mem_listFiles later
    | reindex conditions => exact absurd later id
    | reset => exact absurd later id

/-- Nothing is stale before a model of kept state is compared with the files. -/
theorem not_mem_dirty_restored (workspace : Workspace) (config : Config) (state : State)
    (enabled : Bool) (path : String) :
    ¬ path ∈ (restored workspace config state enabled).catalog.staleness.dirty := by
  dsimp only [restored]
  rw [Catalog.staleness_ofState]
  simp [Staleness.retain, Staleness.ofEntries]

section Allowed

variable {allowed : String → Prop}

theorem allowed_perform {model : Model} (exact : model.catalog.Exact)
    (known : ∀ path, model.catalog.Knows path → allowed path) (action : Action)
    (brings : ∀ path, action.Brings model.workspace path → allowed path) (path : String)
    (knows : (action.perform model).catalog.Knows path) : allowed path := by
  cases action with
  | getEntry tree asked now =>
      rcases knows_refresh exact knows with before | ⟨same, indexable⟩
      · exact known path before
      · exact brings path ⟨same, same ▸ indexable⟩
  | reindex conditions =>
      -- What a run takes up is stale, and so it is known already.
      have run : (model.reindex conditions).2.catalog.Exact ∧
          ∀ path, (model.reindex conditions).2.catalog.Knows path → allowed path := by
        refine reindex_induction (P := fun reached => reached.catalog.Exact ∧
          ∀ path, reached.catalog.Knows path → allowed path) (Q := allowed) ?_ ?_ ⟨exact, known⟩
        · rintro reached stale ⟨_, allows⟩ listed
          exact allows stale (Or.inl ((Staleness.mem_listStale _ stale).mp listed))
        · rintro reached taken ⟨holds, allows⟩ wanted
          refine ⟨exact_refresh holds conditions.tree taken conditions.now, ?_⟩
          intro other knowsOther
          rcases knows_refresh holds knowsOther with before | ⟨same, _⟩
          · exact allows other before
          · exact same ▸ wanted
      exact run.2 path knows
  | apply event =>
      have after := (knows_apply exact event path).mp knows
      split at after
      · exact known path after.2
      · rcases after with reported | before
        · exact brings path reported
        · exact known path before
  | reconcile tree =>
      dsimp only [Action.perform] at knows
      rw [catalog_reconcile] at knows
      rcases Catalog.listed_of_knows_reconcile exact knows with stale | listed
      · exact known path (Or.inl stale)
      · exact brings path ((mem_listing model tree path).mp listed)
  | reset =>
      rcases knows with stale | recorded
      · exact absurd stale Std.ExtTreeSet.not_mem_empty
      · exact absurd recorded Std.ExtTreeMap.not_mem_empty

theorem allowed_origin {workspace : Workspace} {config : Config} {origin : Origin}
    {enabled : Bool} (brings : ∀ path, origin.Brings workspace path → allowed path)
    (path : String) (knows : (origin.model workspace config enabled).catalog.Knows path) :
    allowed path := by
  cases origin with
  | new =>
      rcases knows with stale | recorded
      · exact absurd stale Std.ExtTreeSet.not_mem_empty
      · exact absurd recorded Std.ExtTreeMap.not_mem_empty
  | kept state tree =>
      obtain ⟨_, _, frame⟩ := ofState_frame workspace config state tree enabled
      dsimp only [Origin.model] at knows
      rw [frame] at knows
      have quiet := not_mem_dirty_restored workspace config state enabled path
      have exact : (restored workspace config state enabled).catalog.Exact :=
        Catalog.Exact.ofState _ _ enabled
      have listed := (Catalog.listed_of_knows_reconcile exact knows).resolve_left quiet
      rw [mem_listing] at listed
      exact brings path listed

end Allowed

section Reached

variable (workspace : Workspace) (config : Config) (origin : Origin) (actions : List Action)
  (enabled : Bool)

theorem brought_of_knows {path : String}
    (knows : (reached workspace config origin actions enabled).catalog.Knows path) :
    Brought workspace origin actions path := by
  have reaching : (reached workspace config origin actions enabled).workspace = workspace ∧
      (reached workspace config origin actions enabled).catalog.Exact ∧
      ∀ path, (reached workspace config origin actions enabled).catalog.Knows path →
        Brought workspace origin actions path := by
    refine List.foldlRecOn (motive := fun model : Model => model.workspace = workspace ∧
      model.catalog.Exact ∧ ∀ path, model.catalog.Knows path →
        Brought workspace origin actions path) actions _ ?_ ?_
    · refine ⟨(reached_frame workspace config origin [] enabled).1,
        exact_reached workspace config origin [] enabled, ?_⟩
      exact allowed_origin fun path brings => Or.inl brings
    · rintro model ⟨same, exact, known⟩ action member
      refine ⟨(perform_frame model action).1.trans same, exact_perform exact action, ?_⟩
      apply allowed_perform exact known
      intro path brings
      exact Or.inr ⟨action, member, same ▸ brings⟩
  exact reaching.2.2 path knows

theorem dated_reached : (reached workspace config origin actions enabled).catalog.Dated := by
  refine List.foldlRecOn (motive := fun model : Model => model.catalog.Dated) actions _ ?_
    fun _ dated action _ => dated_perform dated action
  cases origin with
  | new => exact fun path recorded => absurd recorded Std.ExtTreeMap.not_mem_empty
  | kept state tree =>
      obtain ⟨_, _, frame⟩ := ofState_frame workspace config state tree enabled
      dsimp only [Origin.model]
      rw [frame]
      exact Catalog.dated_reconcile _ _

end Reached

end Model

end CodeIndex
