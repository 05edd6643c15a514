import CodeIndex.Proofs.InterruptedSave
import CodeIndex.Proofs.Model.Cancellation
import CodeIndex.Proofs.Model.KeptState
import CodeIndex.Proofs.State

/-!
Contract: documents that are lost are made anew from the files.

Owns:
- `Model.graph_resume_of_kept`, `Model.graph_resume_of_lost`: with the records or without them, a
  run comes to the graph of the files;
- `Model.depicts_resume`: so it does for the whole model;
- `Model.Mirrors`: the records of a model are those of the listed files, as they are;
- `Model.recovered_from_remains`: what is left of a saved state leads to the model of the whole
  state.

A state without records makes all of them in one round, in the order of their paths, just as they
are restored.
-/

set_option autoImplicit false

namespace CodeIndex

open CodeIndex.Path

namespace Model

/-! ## Graphs after runs -/

/-- A run over files whose records are as they are leaves the graph alone. -/
theorem graph_reindex_of_current {start : Model} (exact : start.catalog.Exact) {tree : FileTree}
    (current : ∀ path, start.catalog.Knows path → ∃ bytes,
      start.workspace.read tree path = .ok bytes ∧
        start.undatedAt path = some (Record.ofBytes path bytes 0))
    (now : Timestamp) :
    (start.reindex { tree := tree, now := now }).2.graph = start.graph := by
  refine (reindex_induction (P := fun model => Partway start tree model ∧
    model.graph = start.graph) (Q := start.Reaches tree) ?_ ?_ ⟨.refl exact tree, rfl⟩).2
  · rintro model path ⟨partway, _⟩ listed
    exact partway.stale path ((Staleness.mem_listStale _ path).mp listed)
  · rintro model path ⟨partway, same⟩ reaches
    refine ⟨partway.refresh exact reaches now, ?_⟩
    -- What the run gets to has the record already that it would get.
    obtain ⟨bytes, read, undated⟩ := current path (knows_of_reaches exact reaches)
    have renewed : start.renewedAt tree path = some (Record.ofBytes path bytes 0) := by
      rw [renewedAt, undated,
        Workspace.renewal_of_same read (Record.fingerprint_ofBytes path bytes 0),
        Record.ofBytes_with_lastIndexed]
    have here : model.undatedAt path = some (Record.ofBytes path bytes 0) := by
      rcases partway.record path with before | ⟨_, _, after⟩
      · exact before.trans undated
      · exact after.trans renewed
    obtain ⟨record, recorded, isMade⟩ := Option.map_eq_some_iff.mp here
    have fingerprint : record.fingerprint = fingerprint bytes := by
      have equal := congrArg Record.fingerprint isMade
      rwa [Record.fingerprint_ofBytes] at equal
    rw [← partway.workspace] at read
    rw [← same]
    have spec := model.refresh_spec tree path now
    generalize (model.refresh tree path now).1 = status at spec
    dsimp only
    generalize (model.refresh tree path now).2 = after at spec ⊢
    cases spec with
    | cached _ _ => rfl
    | failed _ => rfl
    | unchanged _ _ _ _ _ => rfl
    | indexed found readAgain differs =>
        obtain rfl := Except.ok.inj (read.symm.trans readAgain)
        exact absurd fingerprint (differs record recorded)
    | removed missing =>
        rw [read] at missing
        exact absurd missing (by simp)

/-- Without any records, a run is over after one round. -/
theorem reindex_of_unrecorded {model : Model} (unrecorded : model.catalog.records = ∅)
    (tree : FileTree) (now : Timestamp) :
    (model.reindex { tree := tree, now := now }).2 =
      model.refreshAll tree now model.catalog.listStale := by
  have pending : Run.pending { model := model } = model.catalog.listStale := by
    simp [Run.pending]
  obtain ⟨number, equal⟩ := Run.round_eq { tree := tree, now := now } (fun _ => rfl)
    { model := model }
  unfold reindex
  rw [unrecorded, Std.ExtTreeMap.size_empty, Run.rounds_succ, pending]
  by_cases drained : model.catalog.listStale = []
  · rw [if_pos drained, drained]
    rfl
  · -- There are as many rounds as there are records, and one more.
    rw [if_neg drained, Run.rounds, ite_self, equal, pending]
    dsimp only
    rw [Run.model_foldl_refreshFile]

/-- A file without a record is put into the graph when it is taken up. -/
theorem graph_refresh_of_new {model : Model} {tree : FileTree} {path : String} {bytes : ByteArray}
    (on : model.catalog.enabled = true) (new : model.catalog.records[path]? = none)
    (indexable : (Language.ofPath path).isIndexable = true)
    (read : model.workspace.read tree path = .ok bytes) (now : Timestamp) :
    (model.refresh tree path now).2.graph = model.graph.update (Record.ofBytes path bytes 0) := by
  have spec := model.refresh_spec tree path now
  generalize (model.refresh tree path now).1 = status at spec
  generalize (model.refresh tree path now).2 = after at spec ⊢
  cases spec with
  | cached _ known =>
      rw [new] at known
      exact absurd known (by simp)
  | failed unreadable =>
      exact absurd unreadable (readable_of_read on indexable (Or.inl ⟨bytes, read⟩))
  | unchanged _ _ _ found _ =>
      rw [new] at found
      exact absurd found (by simp)
  | indexed found readAgain _ =>
      obtain rfl := Except.ok.inj (read.symm.trans readAgain)
      dsimp only [addToViews]
      rw [← Graph.update_undated, Record.undated_ofBytes]
  | removed missing =>
      rw [read] at missing
      exact absurd missing (by simp)

theorem graph_refreshAll_of_new {model : Model} {tree : FileTree} (now : Timestamp)
    (on : model.catalog.enabled = true) {paths : List String} (distinct : paths.Nodup)
    (new : ∀ path ∈ paths, model.catalog.records[path]? = none)
    (readable : ∀ path ∈ paths, (Language.ofPath path).isIndexable = true ∧
      ∃ bytes, model.workspace.read tree path = .ok bytes) :
    (model.refreshAll tree now paths).graph =
      (paths.filterMap fun path => model.workspace.renewal tree path 0 none).foldl Graph.update
        model.graph := by
  induction paths generalizing model with
  | nil => rfl
  | cons first rest inductionHypothesis =>
      obtain ⟨absent, restDistinct⟩ := List.nodup_cons.mp distinct
      obtain ⟨firstNew, restNew⟩ := List.forall_mem_cons.mp new
      obtain ⟨⟨indexable, bytes, read⟩, restReadable⟩ := List.forall_mem_cons.mp readable
      have renewed : model.workspace.renewal tree first 0 none =
          some (Record.ofBytes first bytes 0) := Workspace.renewal_of_differs read (by simp) 0
      have others : ∀ path ∈ rest,
          (model.refresh tree first now).2.catalog.records[path]? = none := by
        intro path member
        rcases model.refresh_eq_self_or_spreads tree first now with same | ⟨_, spreads⟩
        · rw [same]
          exact restNew path member
        · rw [spreads.sets.others path fun same => absent (same ▸ member)]
          exact restNew path member
      have same := workspace_refresh model tree first now
      have later := inductionHypothesis ((enabled_refresh model tree first now).trans on)
        restDistinct others (by rwa [same])
      rw [same, graph_refresh_of_new on firstNew indexable read] at later
      simp only [List.filterMap_cons, renewed, List.foldl_cons]
      rw [refreshAll, List.foldl_cons]
      exact later

/-! ## Runs over kept state -/

section Resumed

variable {workspace : Workspace} {state : State} {tree : FileTree}
  (current : state.Current workspace tree)
  (readable : ∀ path ∈ workspace.listFiles tree, ∃ bytes, workspace.read tree path = .ok bytes)
  (config : Config) (now : Timestamp)

include current

theorem graph_resume_of_kept (covers : ∀ path ∈ workspace.listFiles tree, path ∈ state.records) :
    (resume workspace config state tree now).graph = drawing workspace config tree := by
  unfold resume
  rw [graph_reindex_of_current (exact_ofState workspace config state tree true),
    graph_ofState_eq_drawing current config covers]
  intro path knows
  rw [workspace_ofState, undatedAt, records_ofState current]
  have listed := (knows_ofState current config).mp knows
  obtain ⟨record, kept⟩ := Option.isSome_iff_exists.mp
    (Std.ExtTreeMap.mem_iff_isSome_getElem?.mp (covers path listed))
  obtain ⟨_, bytes, time, read, rfl⟩ := current path record kept
  exact ⟨bytes, read, by rw [kept, Option.map_some, Record.undated_ofBytes]⟩

include readable

theorem listStale_resume : (resume workspace config state tree now).catalog.listStale = [] := by
  unfold resume
  exact (grounded_ofState current config readable).listStale_reindex
    (exact_ofState workspace config state tree true) now

theorem undatedAt_resume (path : String) :
    (resume workspace config state tree now).undatedAt path =
      if path ∈ workspace.listFiles tree then workspace.renewal tree path 0 none else none := by
  have records := (grounded_ofState current config readable).undatedAt_reindex
    (exact_ofState workspace config state tree true) now path
  rw [workspace_ofState, knows_ofState current] at records
  unfold resume
  split
  · next listed => exact records.1 listed
  · next unlisted => exact records.2 unlisted

theorem graph_resume_of_lost (lost : state.records = ∅) :
    (resume workspace config state tree now).graph = drawing workspace config tree := by
  have records : (ofState workspace config state tree).catalog.records = ∅ :=
    (records_ofState current config).trans lost
  have stale : (ofState workspace config state tree).catalog.listStale =
      (Std.ExtTreeSet.ofList (workspace.listFiles tree)).toList := by
    have dirty : (ofState workspace config state tree).catalog.staleness.dirty =
        Std.ExtTreeSet.ofList (workspace.listFiles tree) := by
      apply Std.ExtTreeSet.ext_mem
      intro path
      rw [mem_dirty_ofState current, lost, Std.ExtTreeSet.mem_ofList, List.contains_iff_mem]
      exact ⟨fun both => both.1, fun listed =>
        ⟨listed, fun _ recorded => absurd recorded Std.ExtTreeMap.not_mem_empty⟩⟩
    rw [Catalog.listStale, Staleness.listStale, dirty]
  have distinct : (Std.ExtTreeSet.ofList (workspace.listFiles tree)).toList.Nodup :=
    Std.ExtTreeSet.distinct_toList.imp Std.ReflCmp.ne_of_cmp_ne_eq
  have taken : ∀ path ∈ (Std.ExtTreeSet.ofList (workspace.listFiles tree)).toList,
      (Language.ofPath path).isIndexable = true ∧
        ∃ bytes, workspace.read tree path = .ok bytes := by
    intro path member
    rw [Std.ExtTreeSet.mem_toList, Std.ExtTreeSet.mem_ofList, List.contains_iff_mem] at member
    exact ⟨Workspace.indexable_of_mem_listFiles member, readable path member⟩
  have graph : (ofState workspace config state tree).graph =
      .empty config.graph.fallbackCandidates := by
    rw [graph_ofState current, lost]
    rfl
  unfold resume
  rw [reindex_of_unrecorded records, stale,
    graph_refreshAll_of_new now (enabled_ofState workspace config state tree true) distinct, graph,
    workspace_ofState, drawing]
  · simp [records]
  · rwa [workspace_ofState]

/-- With the records of all listed files, or with none, a run comes to a model that shows the
files. -/
theorem depicts_resume
    (whole : (∀ path ∈ workspace.listFiles tree, path ∈ state.records) ∨ state.records = ∅) :
    Depicts workspace config tree (resume workspace config state tree now) where
  aligned := (aligned_ofState workspace config state tree true).reindex _
  records := undatedAt_resume current readable config now
  graph := by
    rcases whole with covers | lost
    · exact graph_resume_of_kept current config now covers
    · exact graph_resume_of_lost current readable config now lost

end Resumed

/-! ## Lost documents -/

/-- A model has records of the listed files as they are, and no others. -/
structure Mirrors (model : Model) (tree : FileTree) : Prop where
  listed : ∀ path, path ∈ model.catalog.records ↔ path ∈ model.workspace.listFiles tree
  made : ∀ (path : String) (record : Record), model.catalog.records[path]? = some record →
    ∃ bytes time, model.workspace.read tree path = .ok bytes ∧
      record = Record.ofBytes path bytes time

namespace Mirrors

variable {model : Model} {tree : FileTree} (mirrors : model.Mirrors tree)

include mirrors

theorem readable (path : String) (listed : path ∈ model.workspace.listFiles tree) :
    ∃ bytes, model.workspace.read tree path = .ok bytes := by
  obtain ⟨record, recorded⟩ := Option.isSome_iff_exists.mp
    ((Catalog.mem_records_iff _ _).mp ((mirrors.listed path).mpr listed))
  obtain ⟨bytes, _, read, _⟩ := mirrors.made path record recorded
  exact ⟨bytes, read⟩

/-- The records have members of one level at most, so that they can be restored. -/
theorem nested : ∀ entry ∈ model.state.records.toList, ∀ symbol ∈ entry.2.symbols,
    symbol.Nested 1 := by
  intro entry member
  obtain ⟨bytes, time, _, isMade⟩ := mirrors.made entry.1 entry.2
    (Std.ExtTreeMap.mem_toList_iff_getElem?_eq_some.mp member)
  rw [isMade]
  exact Record.nested_ofBytes _ _ _

/-- What is left of the state was made of listed files, too. -/
theorem current {left : State} (remains : left.Remains model.state) :
    left.Current model.workspace tree := by
  intro path record kept
  rcases remains.records with same | lost
  · rw [same] at kept
    dsimp only [state] at kept
    have recorded : path ∈ model.catalog.records := by
      rw [Catalog.mem_records_iff, kept]
      rfl
    exact ⟨(mirrors.listed path).mp recorded, mirrors.made path record kept⟩
  · rw [lost] at kept
    exact absurd kept (by simp)

/-- There is a record of every listed file left, or of none. -/
theorem covers {left : State} (remains : left.Remains model.state) :
    (∀ path ∈ model.workspace.listFiles tree, path ∈ left.records) ∨ left.records = ∅ := by
  refine remains.records.imp_left fun same path listed => ?_
  rw [same]
  exact (mirrors.listed path).mpr listed

/-- Opened from its whole state, a model finds those files stale that were modified after they were
last clean. -/
theorem mem_listStale_ofState (settled : model.catalog.listStale = [])
    (dated : model.catalog.Dated) (config : Config) (path : String) :
    path ∈ (ofState model.workspace config model.state tree).catalog.listStale ↔
      path ∈ model.workspace.listFiles tree ∧
        ∃ time, model.catalog.staleness.lastClean[path]? = some time ∧
          time < (model.workspace.modified? tree path).getD Int64.maxValue := by
  have fresh : ¬ path ∈ model.catalog.staleness.dirty := by
    rw [← Staleness.mem_listStale]
    intro stale
    have listed : path ∈ model.catalog.listStale := stale
    rw [settled] at listed
    exact absurd listed (by simp)
  have times : model.state.clean[path]? = model.catalog.staleness.lastClean[path]? := by
    dsimp only [state]
    rw [Staleness.getElem?_entries]
    simp [fresh]
  rw [Catalog.listStale, Staleness.mem_listStale, mem_dirty_ofState (mirrors.current (.refl _)),
    times]
  refine and_congr_right fun listed => ?_
  have recorded := (mirrors.listed path).mpr listed
  obtain ⟨time, isClean⟩ := Option.isSome_iff_exists.mp
    (Std.ExtTreeMap.mem_iff_isSome_getElem?.mp ((dated path recorded).resolve_left fresh))
  constructor
  · intro late
    exact ⟨time, isClean, Int64.not_le.mp (late time recorded isClean)⟩
  · rintro ⟨known, isKnown, late⟩ other _ isOther
    rw [Option.some.inj (isOther.symm.trans isKnown)]
    exact Int64.not_le.mpr late

end Mirrors

/-- Opening a model and going through its stale files is a history. -/
theorem resume_eq_reached (workspace : Workspace) (config : Config) (state : State)
    (tree : FileTree) (now : Timestamp) :
    resume workspace config state tree now =
      reached workspace config (.kept state tree) [.reindex { tree := tree, now := now }] := rfl

/-- A run from a state of records that are as the files are ends with such records. -/
theorem mirrors_resume {workspace : Workspace} {state : State} {tree : FileTree}
    (current : state.Current workspace tree)
    (readable : ∀ path ∈ workspace.listFiles tree, ∃ bytes, workspace.read tree path = .ok bytes)
    (config : Config) (now : Timestamp) :
    (resume workspace config state tree now).Mirrors tree := by
  have same : (resume workspace config state tree now).workspace = workspace := by
    rw [resume, workspace_reindex, workspace_ofState]
  have made : ∀ (path : String) (record : Record),
      (resume workspace config state tree now).catalog.records[path]? = some record →
        path ∈ workspace.listFiles tree ∧ ∃ bytes time, workspace.read tree path = .ok bytes ∧
          record = Record.ofBytes path bytes time := by
    intro path record recorded
    have undated := undatedAt_resume current readable config now path
    rw [undatedAt, recorded, Option.map_some] at undated
    split at undated
    · next listed =>
        obtain ⟨bytes, read⟩ := readable path listed
        rw [Workspace.renewal_of_differs read (by simp)] at undated
        refine ⟨listed, bytes, record.lastIndexed, read, ?_⟩
        rw [← Record.ofBytes_with_lastIndexed path bytes 0, ← Option.some.inj undated]
        rfl
    · exact absurd undated (by simp)
  constructor
  case listed =>
    intro path
    rw [same, Catalog.mem_records_iff]
    constructor
    · intro recorded
      obtain ⟨record, found⟩ := Option.isSome_iff_exists.mp recorded
      exact (made path record found).1
    · intro listed
      have undated := undatedAt_resume current readable config now path
      obtain ⟨bytes, read⟩ := readable path listed
      rw [if_pos listed, Workspace.renewal_of_differs read (by simp)] at undated
      obtain ⟨record, found, _⟩ := Option.map_eq_some_iff.mp undated
      rw [found]
      rfl
  case made =>
    rw [same]
    exact fun path record recorded => (made path record recorded).2

/-- Take a model that can be reached, with nothing stale, and with records of the listed files as
they are. Let it be saved, and let any of the documents be lost: missing, malformed or of another
version. A model that is opened from what is left and goes through the stale files has nothing stale
then. It agrees with the model that is opened from all documents, before and after that one goes
through its own stale files. These are the ones that were modified after they were last clean. -/
theorem recovered_from_remains (workspace : Workspace) (config : Config) (origin : Origin)
    (actions : List Action) {tree disk left : FileTree} {place : List String}
    (saving now later : Timestamp)
    (settled : (reached workspace config origin actions).catalog.listStale = [])
    (mirrors : (reached workspace config origin actions).Mirrors tree)
    (wellFormed : disk.WellFormed) (nonempty : ¬ place = [])
    (clean : ∀ step ∈ place, Clean step)
    (complete : ((reached workspace config origin actions).state.save disk
      (FileTree.pathOf place) saving).1 = .complete)
    (remains : (State.load left (FileTree.pathOf place)).Remains
      (State.load ((reached workspace config origin actions).state.save disk
        (FileTree.pathOf place) saving).2 (FileTree.pathOf place))) :
    let model := reached workspace config origin actions
    let saved := (model.state.save disk (FileTree.pathOf place) saving).2
    let whole := State.load saved (FileTree.pathOf place)
    let opened := ofState workspace config whole tree
    let recovered :=
      resume workspace config (State.load left (FileTree.pathOf place)) tree now
    whole = model.state ∧
      recovered.catalog.listStale = [] ∧ recovered.Agrees opened ∧
      (resume workspace config whole tree later).catalog.listStale = [] ∧
      recovered.Agrees (resume workspace config whole tree later) ∧
      ∀ path, path ∈ opened.catalog.listStale ↔
        path ∈ workspace.listFiles tree ∧
          ∃ time, model.catalog.staleness.lastClean[path]? = some time ∧
            time < (workspace.modified? tree path).getD Int64.maxValue := by
  have same := (reached_frame workspace config origin actions true).1
  have dated := dated_reached workspace config origin actions true
  generalize reached workspace config origin actions = model at *
  subst same
  have restored := State.load_save wellFormed nonempty clean complete (by decide) mirrors.nested
  rw [restored] at remains
  dsimp only
  rw [restored]
  have readable := mirrors.readable
  have whole : model.state.Remains model.state := .refl _
  have recovered := depicts_resume (mirrors.current remains) readable config now
    (mirrors.covers remains)
  refine ⟨rfl, listStale_resume (mirrors.current remains) readable config now,
    recovered.agrees (depicts_ofState (mirrors.current whole) config ?_),
    listStale_resume (mirrors.current whole) readable config later,
    recovered.agrees (depicts_resume (mirrors.current whole) readable config later
      (mirrors.covers whole)),
    mirrors.mem_listStale_ofState settled dated config⟩
  exact fun path => (mirrors.listed path).mpr

open LiveModel (sampleWorkspace sampleConfig extendedTree)

/-- Two files are indexed. -/
def savedModel : Model :=
  reached sampleWorkspace sampleConfig (.kept {} extendedTree)
    [.reindex { tree := extendedTree, now := 1500 }]

/-- Rewriting with this does not evaluate the run, as unfolding would. -/
theorem savedModel_eq :
    savedModel = reached sampleWorkspace sampleConfig (.kept {} extendedTree)
      [.reindex { tree := extendedTree, now := 1500 }] := rfl

/-- The documents are saved beside the files. Then the records are lost, and the times are replaced
by those of another version. -/
def damagedTree : FileTree :=
  let saved := (savedModel.state.save extendedTree (FileTree.pathOf ["state"]) 1600).2
  ((saved.remove? "/state/records.json").bind fun without =>
    without.write? "/state/staleness.json"
      ⟨"\x7b\x22version\x22:2,\x22entries\x22:\x7b\x7d\x7d".toUTF8, 1700⟩ 1700).getD saved

theorem damagedTree_values :
    (savedModel.state.save extendedTree (FileTree.pathOf ["state"]) 1600).1 = .complete ∧
      (State.load damagedTree (FileTree.pathOf ["state"])).clean.isEmpty = true ∧
      (State.load damagedTree (FileTree.pathOf ["state"])).records.isEmpty = true ∧
      damagedTree.read? (FileTree.pathOf ["state"] ++ "/" ++ State.fingerprintsFile) =
        (savedModel.state.save extendedTree (FileTree.pathOf ["state"]) 1600).2.read?
          (FileTree.pathOf ["state"] ++ "/" ++ State.fingerprintsFile) := by
  decide +kernel

theorem remains_damagedTree :
    (State.load damagedTree (FileTree.pathOf ["state"])).Remains
      (State.load (savedModel.state.save extendedTree (FileTree.pathOf ["state"]) 1600).2
        (FileTree.pathOf ["state"])) := by
  obtain ⟨_, noTimes, noRecords, sameFingerprints⟩ := damagedTree_values
  refine ⟨Or.inr (Std.ExtTreeMap.isEmpty_iff.mp noTimes),
    Or.inr (Std.ExtTreeMap.isEmpty_iff.mp noRecords), Or.inl ?_⟩
  rw [State.load, State.load]
  dsimp only
  rw [Document.load, sameFingerprints, Document.load]

theorem readable_extendedTree : ∀ path ∈ sampleWorkspace.listFiles extendedTree,
    ∃ bytes, sampleWorkspace.read extendedTree path = .ok bytes := by
  have found : ∀ path ∈ sampleWorkspace.listFiles extendedTree,
      (sampleWorkspace.read extendedTree path).toOption.isSome := by
    decide +kernel
  intro path listed
  have present := found path listed
  cases read : sampleWorkspace.read extendedTree path with
  | ok bytes => exact ⟨bytes, rfl⟩
  | error reason =>
      rw [read] at present
      exact absurd present (by simp [Except.toOption])

/-- Nothing but fingerprints is left, and the model is recovered. -/
theorem damagedTree_recovered :
    let saved := savedModel.state.save extendedTree (FileTree.pathOf ["state"]) 1600
    let left := State.load damagedTree (FileTree.pathOf ["state"])
    let whole := State.load saved.2 (FileTree.pathOf ["state"])
    let recovered := resume sampleWorkspace sampleConfig left extendedTree 1800
    savedModel.catalog.listStale = [] ∧ savedModel.Mirrors extendedTree ∧
      saved.1 = .complete ∧ left.Remains whole ∧ left.records = ∅ ∧
      recovered.catalog.listStale = [] ∧
      recovered.Agrees (ofState sampleWorkspace sampleConfig whole extendedTree) := by
  have nothing : State.Current {} sampleWorkspace extendedTree :=
    fun path record kept => absurd kept (by simp)
  have settled := listStale_resume nothing readable_extendedTree sampleConfig 1500
  have mirrors := mirrors_resume nothing readable_extendedTree sampleConfig 1500
  rw [resume_eq_reached] at settled mirrors
  have wellFormed : extendedTree.WellFormed :=
    LiveModel.wellFormed_sampleTrees _ (by simp [LiveModel.sampleTrees])
  have clean : ∀ step ∈ ["state"], Clean step := by
    rw [List.forall_mem_singleton]
    exact ⟨by decide, by decide, by decide, by decide⟩
  have remains := remains_damagedTree
  obtain ⟨complete, _, noRecords, _⟩ := damagedTree_values
  rw [savedModel_eq] at complete remains
  have result := recovered_from_remains sampleWorkspace sampleConfig (.kept {} extendedTree)
    [.reindex { tree := extendedTree, now := 1500 }] 1600 1800 1900 settled mirrors wellFormed
    (by simp) clean complete remains
  dsimp only at result ⊢
  rw [savedModel_eq]
  exact ⟨settled, mirrors, complete, remains,
    Std.ExtTreeMap.isEmpty_iff.mp noRecords, result.2.1, result.2.2.1⟩

end Model

end CodeIndex
