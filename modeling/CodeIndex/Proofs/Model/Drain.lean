import CodeIndex.Proofs.Model.Refresh

/-!
Contract: bringing all stale files up to date comes to an end.

Owns:
- `Model.InStep`: the record of a path, or its lack, agrees with the file;
- `Model.Settles`: what a refresh of a stale file does, unless it fails;
- `Model.outOfStep`: the records that a run may still have to replace or remove;
- `Model.Run.Drains`: round after round until nothing is pending, with no bound on the rounds;
- `Model.reindex_drains`: every run that is not cancelled drains the stale files.

Only a record that is out of step with its file makes other files stale when it is replaced or
removed, and it is in step from then on. A round in which none is replaced or removed leaves only
files that failed.
-/

set_option autoImplicit false

namespace CodeIndex.Model

/-! ## Records and files -/

/-- The record of a path has the fingerprint of the file and is known to be clean; or there is
neither a record nor a file. -/
def InStep (model : Model) (tree : FileTree) (path : String) : Prop :=
  (path ∈ model.catalog.staleness.lastClean ∧ ∃ record bytes,
    model.catalog.records[path]? = some record ∧ model.workspace.read tree path = .ok bytes ∧
      record.fingerprint = fingerprint bytes) ∨
  (model.catalog.records[path]? = none ∧ model.workspace.read tree path = .error .missing)

/-- Whether the bytes at a path are others than those a record was made of. -/
def differs (workspace : Workspace) (tree : FileTree) (path : String) (record : Record) : Bool :=
  match workspace.read tree path with
  | .ok bytes => record.fingerprint != fingerprint bytes
  | .error _ => true

/-- The records that are out of step with their files. -/
def outOfStep (model : Model) (tree : FileTree) : Std.ExtTreeMap String Record :=
  model.catalog.records.filter fun path record => differs model.workspace tree path record

/-- What a refresh of a stale file does, unless it fails. -/
structure Settles (tree : FileTree) (path : String) (before after : Model) : Prop where
  workspace : after.workspace = before.workspace
  config : after.config = before.config
  enabled : after.catalog.enabled = before.catalog.enabled
  inStep : after.InStep tree path
  others : ∀ other, ¬ path = other →
    after.catalog.records[other]? = before.catalog.records[other]?
  othersClean : ∀ other, ¬ path = other →
    (other ∈ after.catalog.staleness.lastClean ↔ other ∈ before.catalog.staleness.lastClean)
  clean : ¬ path ∈ after.catalog.staleness.dirty
  kept : ∀ other, ¬ path = other →
    other ∈ before.catalog.staleness.dirty → other ∈ after.catalog.staleness.dirty
  marked : ∀ other, other ∈ after.catalog.staleness.dirty →
    other ∈ before.catalog.staleness.dirty ∨ path ∈ before.outOfStep tree

theorem mem_outOfStep (model : Model) (tree : FileTree) (path : String) :
    path ∈ model.outOfStep tree ↔ ∃ record, model.catalog.records[path]? = some record ∧
      differs model.workspace tree path record = true := by
  rw [Std.ExtTreeMap.mem_iff_isSome_getElem?, outOfStep, Std.ExtTreeMap.getElem?_filter']
  cases model.catalog.records[path]? <;> simp

/-- The general step from the catalog to the model. -/
theorem Settles.ofSets {tree : FileTree} {path : String} {before after : Model}
    {record : Option Record} (sets : Catalog.Sets path record before.catalog after.catalog)
    (workspace : after.workspace = before.workspace) (config : after.config = before.config)
    (inStep : after.InStep tree path)
    (differs : ∀ old, before.catalog.records[path]? = some old →
      Model.differs before.workspace tree path old = true ∨
        ∀ other, other ∈ after.catalog.staleness.dirty → other ∈ before.catalog.staleness.dirty) :
    Settles tree path before after where
  workspace := workspace
  config := config
  enabled := sets.enabled
  inStep := inStep
  others := sets.others
  othersClean := sets.othersClean
  clean := sets.clean
  kept := sets.kept
  marked := by
    intro other dirty
    rcases sets.marked other dirty with already | ⟨known, _⟩
    · exact Or.inl already
    · obtain ⟨old, found⟩ := Option.isSome_iff_exists.mp known
      rcases differs old found with changed | unmarked
      · exact Or.inr ((mem_outOfStep before tree path).mpr ⟨old, found, changed⟩)
      · exact Or.inl (unmarked other dirty)

theorem isStale_of_dirty {model : Model} {path : String}
    (dirty : path ∈ model.catalog.staleness.dirty) : model.catalog.isStale path = true := by
  rw [Catalog.isStale, ← Bool.not_eq_false, Staleness.isStale_eq_false]
  exact fun clean => clean.1 dirty

/-- A stale file is brought in step, unless it cannot be read. -/
theorem refresh_settles {model : Model} {tree : FileTree} {path : String} (now : Timestamp)
    (dirty : path ∈ model.catalog.staleness.dirty)
    (readable : ¬ model.Unreadable tree path) :
    ¬ (model.refresh tree path now).1 = .failed ∧
      Settles tree path model (model.refresh tree path now).2 := by
  have stale := isStale_of_dirty dirty
  have spec := model.refresh_spec tree path now
  generalize (model.refresh tree path now).1 = status at spec ⊢
  generalize (model.refresh tree path now).2 = after at spec ⊢
  cases spec with
  | cached clean => rw [stale] at clean; exact absurd clean (by simp)
  | failed unreadable => exact absurd unreadable readable
  | unchanged bytes old read found same =>
      have sets := Catalog.sets_refreshRecord model.catalog path old now
      refine ⟨by simp, Settles.ofSets sets rfl rfl ?_ ?_⟩
      · exact Or.inl ⟨sets.selfClean.mpr rfl, _, bytes, sets.self, read, same⟩
      · intro old _
        right
        intro other marked
        exact ((Staleness.mem_dirty_markClean _ _ _ _).mp marked).2
  | indexed bytes read differs =>
      have sets := Catalog.sets_replace model.catalog (Record.ofBytes path bytes now)
      rw [Record.path_ofBytes] at sets
      refine ⟨by simp, Settles.ofSets sets rfl rfl ?_ ?_⟩
      · exact Or.inl ⟨sets.selfClean.mpr rfl, _, bytes, sets.self, read,
          Record.fingerprint_ofBytes path bytes now⟩
      · intro old found
        left
        simpa [Model.differs, read] using differs old found
  | removed missing =>
      have sets := Catalog.sets_removeFile model.catalog path
      refine ⟨by simp, Settles.ofSets sets rfl rfl ?_ ?_⟩
      · exact Or.inr ⟨sets.self, missing⟩
      · intro old found
        left
        simp [Model.differs, missing]

/-! ## The measure -/

theorem InStep.not_mem_outOfStep {model : Model} {tree : FileTree} {path : String}
    (inStep : model.InStep tree path) : ¬ path ∈ model.outOfStep tree := by
  rw [mem_outOfStep]
  rintro ⟨record, found, changed⟩
  rcases inStep with ⟨_, kept, bytes, same, read, equal⟩ | ⟨absent, _⟩
  · rw [found, Option.some.injEq] at same
    simp [differs, read, same, equal] at changed
  · rw [found] at absent
    exact absurd absent (by simp)

namespace Settles

variable {tree : FileTree} {path : String} {before after : Model}

theorem outOfStep_eq (settles : Settles tree path before after) :
    after.outOfStep tree = (before.outOfStep tree).erase path := by
  apply Std.ExtTreeMap.ext_getElem?
  intro other
  rw [Std.ExtTreeMap.getElem?_erase]
  by_cases same : path = other
  · subst same
    simpa using settles.inStep.not_mem_outOfStep
  · simp only [outOfStep, Std.ExtTreeMap.getElem?_filter', settles.others other same,
      settles.workspace, Std.LawfulEqCmp.compare_eq_iff_eq, same, if_false]

theorem size_outOfStep_le (settles : Settles tree path before after) :
    (after.outOfStep tree).size ≤ (before.outOfStep tree).size := by
  rw [settles.outOfStep_eq]
  exact Std.ExtTreeMap.size_erase_le

theorem size_outOfStep_lt (settles : Settles tree path before after)
    (changed : path ∈ before.outOfStep tree) :
    (after.outOfStep tree).size < (before.outOfStep tree).size := by
  have inhabited : ¬ (before.outOfStep tree).size = 0 := by
    intro empty
    rw [Std.ExtTreeMap.eq_empty_iff_size_eq_zero.mpr empty] at changed
    exact absurd changed (by simp)
  rw [settles.outOfStep_eq, Std.ExtTreeMap.size_erase,
    if_pos (Std.ExtTreeMap.contains_iff_mem.mpr changed)]
  omega

theorem inStep_other (settles : Settles tree path before after) {other : String}
    (different : ¬ path = other) (inStep : before.InStep tree other) :
    after.InStep tree other := by
  unfold InStep
  rw [settles.others other different, settles.othersClean other different, settles.workspace]
  exact inStep

end Settles

/-! ## One file of a round -/

namespace Run

variable {conditions : Conditions} {run : Run} {path : String}

theorem refreshFile_of_unreadable (dirty : path ∈ run.model.catalog.staleness.dirty)
    (unreadable : run.model.Unreadable conditions.tree path) :
    run.refreshFile conditions path =
      { run with
        report := { run.report with failed := run.report.failed + 1 }
        failed := run.failed.insert path } := by
  unfold refreshFile
  rw [refresh_of_unreadable run.model conditions.tree path conditions.now unreadable
    (Or.inl (isStale_of_dirty dirty))]
  rfl

theorem refreshFile_of_readable (dirty : path ∈ run.model.catalog.staleness.dirty)
    (readable : ¬ run.model.Unreadable conditions.tree path) :
    Settles conditions.tree path run.model (run.refreshFile conditions path).model ∧
      (run.refreshFile conditions path).failed = run.failed ∧
      (run.refreshFile conditions path).report.failed = run.report.failed ∧
      (run.refreshFile conditions path).report.cancelled = run.report.cancelled := by
  obtain ⟨succeeded, settles⟩ := refresh_settles conditions.now dirty readable
  refine ⟨settles, ?_⟩
  unfold refreshFile
  generalize run.model.refresh conditions.tree path conditions.now = result at succeeded ⊢
  obtain ⟨status, model⟩ := result
  cases status with
  | failed => exact absurd rfl succeeded
  | unchanged => simp [Report.count]
  | indexed => simp [Report.count]
  | removed => simp [Report.count]

/-- What holds of a run that has taken up some paths: those that failed are counted and stay stale,
and all others are in step. -/
structure Sound (tree : FileTree) (start : Model) (paths : List String) (run : Run) : Prop where
  workspace_eq : run.model.workspace = start.workspace
  enabled_eq : run.model.catalog.enabled = start.catalog.enabled
  settled : ∀ path ∈ paths, path ∈ run.failed ∨
    (¬ start.Unreadable tree path ∧ run.model.InStep tree path)
  failed : ∀ path ∈ run.failed, path ∈ paths ∧ start.Unreadable tree path ∧
    path ∈ run.model.catalog.staleness.dirty
  count : run.report.failed = run.failed.size
  alive : run.report.cancelled = false

theorem Sound.unreadable_iff {tree : FileTree} {start : Model} {paths : List String}
    (sound : Sound tree start paths run) (path : String) :
    run.model.Unreadable tree path ↔ start.Unreadable tree path := by
  unfold Unreadable
  rw [sound.workspace_eq, sound.enabled_eq]

theorem Sound.refreshFile {start : Model} {paths : List String}
    (sound : Sound conditions.tree start paths run)
    (dirty : path ∈ run.model.catalog.staleness.dirty) (untried : ¬ path ∈ run.failed) :
    Sound conditions.tree start (paths ++ [path]) (run.refreshFile conditions path) := by
  by_cases unreadable : run.model.Unreadable conditions.tree path
  · rw [refreshFile_of_unreadable dirty unreadable]
    constructor
    case workspace_eq => exact sound.workspace_eq
    case enabled_eq => exact sound.enabled_eq
    case alive => exact sound.alive
    case count =>
      rw [Std.ExtTreeSet.size_insert, if_neg (by simpa using untried), sound.count]
    case settled =>
      intro other member
      rw [Std.ExtTreeSet.mem_insert, Std.LawfulEqCmp.compare_eq_iff_eq]
      rcases List.mem_append.mp member with earlier | now
      · rcases sound.settled other earlier with failed | settled
        · exact Or.inl (Or.inr failed)
        · exact Or.inr settled
      · exact Or.inl (Or.inl (List.mem_singleton.mp now).symm)
    case failed =>
      intro other member
      rw [Std.ExtTreeSet.mem_insert, Std.LawfulEqCmp.compare_eq_iff_eq] at member
      rcases member with rfl | earlier
      · exact ⟨by simp, (sound.unreadable_iff _).mp unreadable, dirty⟩
      · obtain ⟨known, failing, stale⟩ := sound.failed other earlier
        exact ⟨List.mem_append_left _ known, failing, stale⟩
  · obtain ⟨settles, failed, count, cancelled⟩ := refreshFile_of_readable dirty unreadable
    constructor
    case workspace_eq => rw [settles.workspace, sound.workspace_eq]
    case enabled_eq => rw [settles.enabled, sound.enabled_eq]
    case alive => rw [cancelled, sound.alive]
    case count => rw [count, failed, sound.count]
    case settled =>
      intro other member
      rw [failed]
      by_cases same : path = other
      · subst same
        refine Or.inr ⟨?_, settles.inStep⟩
        exact fun failing => unreadable ((sound.unreadable_iff path).mpr failing)
      · rcases List.mem_append.mp member with earlier | now
        · rcases sound.settled other earlier with failing | ⟨readable, inStep⟩
          · exact Or.inl failing
          · exact Or.inr ⟨readable, settles.inStep_other same inStep⟩
        · exact absurd (List.mem_singleton.mp now).symm same
    case failed =>
      intro other member
      rw [failed] at member
      obtain ⟨known, failing, stale⟩ := sound.failed other member
      have different : ¬ path = other := by
        rintro rfl
        exact untried member
      exact ⟨List.mem_append_left _ known, failing, settles.kept other different stale⟩

/-! ## One round -/

/-- What taking up some paths does to a run: either nothing becomes stale, and of these paths only
those that failed stay so; or fewer records are out of step. -/
structure Advances (tree : FileTree) (paths : List String) (before after : Run) : Prop where
  failed : ∀ path ∈ before.failed, path ∈ after.failed
  fewer : (after.model.outOfStep tree).size ≤ (before.model.outOfStep tree).size
  progress : (∀ path ∈ after.model.catalog.staleness.dirty,
      path ∈ before.model.catalog.staleness.dirty ∧ (path ∈ paths → path ∈ after.failed)) ∨
    (after.model.outOfStep tree).size < (before.model.outOfStep tree).size

theorem advances_refreshFile (dirty : path ∈ run.model.catalog.staleness.dirty) :
    Advances conditions.tree [path] run (run.refreshFile conditions path) := by
  by_cases unreadable : run.model.Unreadable conditions.tree path
  · rw [refreshFile_of_unreadable dirty unreadable]
    refine ⟨?_, Nat.le_refl _, Or.inl ?_⟩
    · intro other member
      exact Std.ExtTreeSet.mem_insert.mpr (Or.inr member)
    · intro other stale
      refine ⟨stale, fun member => ?_⟩
      rw [List.mem_singleton.mp member]
      exact Std.ExtTreeSet.mem_insert_self
  · obtain ⟨settles, failed, _, _⟩ := refreshFile_of_readable dirty unreadable
    refine ⟨fun other member => failed ▸ member, settles.size_outOfStep_le, ?_⟩
    by_cases changed : path ∈ run.model.outOfStep conditions.tree
    · exact Or.inr (settles.size_outOfStep_lt changed)
    · left
      intro other stale
      constructor
      · exact (settles.marked other stale).resolve_right changed
      · intro member
        rw [List.mem_singleton.mp member] at stale
        exact absurd stale settles.clean

theorem Advances.trans {tree : FileTree} {first second : List String} {before middle after : Run}
    (earlier : Advances tree first before middle) (later : Advances tree second middle after) :
    Advances tree (first ++ second) before after := by
  refine ⟨fun path member => later.failed path (earlier.failed path member),
    Nat.le_trans later.fewer earlier.fewer, ?_⟩
  rcases earlier.progress with quiet | smaller
  · rcases later.progress with stillQuiet | smaller
    · left
      intro path stale
      obtain ⟨wasStale, secondFailed⟩ := stillQuiet path stale
      obtain ⟨beforeStale, firstFailed⟩ := quiet path wasStale
      refine ⟨beforeStale, fun member => ?_⟩
      rcases List.mem_append.mp member with inFirst | inSecond
      · exact later.failed path (firstFailed inFirst)
      · exact secondFailed inSecond
    · exact Or.inr (Nat.lt_of_lt_of_le smaller earlier.fewer)
  · exact Or.inr (Nat.lt_of_le_of_lt later.fewer smaller)

/-- A refresh takes no other stale file off the list. -/
theorem mem_dirty_refreshFile {other : String} (dirty : path ∈ run.model.catalog.staleness.dirty)
    (different : ¬ path = other) (stale : other ∈ run.model.catalog.staleness.dirty) :
    other ∈ (run.refreshFile conditions path).model.catalog.staleness.dirty := by
  by_cases unreadable : run.model.Unreadable conditions.tree path
  · rw [refreshFile_of_unreadable dirty unreadable]
    exact stale
  · exact (refreshFile_of_readable dirty unreadable).1.kept other different stale

theorem mem_failed_refreshFile {other : String} (dirty : path ∈ run.model.catalog.staleness.dirty)
    (failed : other ∈ (run.refreshFile conditions path).failed) :
    path = other ∨ other ∈ run.failed := by
  by_cases unreadable : run.model.Unreadable conditions.tree path
  · rw [refreshFile_of_unreadable dirty unreadable] at failed
    exact (Std.ExtTreeSet.mem_insert.mp failed).imp_left Std.LawfulEqCmp.eq_of_compare
  · rw [(refreshFile_of_readable dirty unreadable).2.1] at failed
    exact Or.inr failed

/-- Files that are stale and have not been tried, taken up one after the other. -/
theorem foldl_refreshFile {start : Model} (paths : List String) (run : Run)
    (taken : List String) (distinct : paths.Nodup)
    (dirty : ∀ path ∈ paths, path ∈ run.model.catalog.staleness.dirty)
    (untried : ∀ path ∈ paths, ¬ path ∈ run.failed)
    (sound : Sound conditions.tree start taken run) :
    Sound conditions.tree start (taken ++ paths) (paths.foldl (refreshFile conditions) run) ∧
      Advances conditions.tree paths run (paths.foldl (refreshFile conditions) run) := by
  induction paths generalizing run taken with
  | nil =>
      refine ⟨by simpa using sound, fun _ member => member, Nat.le_refl _, Or.inl ?_⟩
      exact fun path stale => ⟨stale, fun member => absurd member (by simp)⟩
  | cons first rest inductionHypothesis =>
      obtain ⟨notLater, distinctRest⟩ := List.nodup_cons.mp distinct
      have firstDirty := dirty first (by simp)
      obtain ⟨soundRest, advances⟩ := inductionHypothesis (run.refreshFile conditions first)
        (taken ++ [first]) distinctRest
        (by
          intro path member
          have different : ¬ first = path := fun same => notLater (same ▸ member)
          exact mem_dirty_refreshFile firstDirty different (dirty path (by simp [member])))
        (by
          intro path member failed
          rcases mem_failed_refreshFile firstDirty failed with same | earlier
          · exact notLater (same ▸ member)
          · exact untried path (by simp [member]) earlier)
        (sound.refreshFile firstDirty (untried first (by simp)))
      rw [List.append_assoc] at soundRest
      exact ⟨soundRest, (advances_refreshFile firstDirty).trans advances⟩

theorem mem_pending (run : Run) (path : String) :
    path ∈ run.pending ↔ path ∈ run.model.catalog.staleness.dirty ∧ ¬ path ∈ run.failed := by
  rw [pending, List.mem_filter, Catalog.listStale, Staleness.mem_listStale, Bool.not_eq_true',
    ← Bool.not_eq_true, Std.ExtTreeSet.contains_iff_mem]

theorem nodup_pending (run : Run) : run.pending.Nodup := by
  have distinct : run.model.catalog.listStale.Nodup :=
    Std.ExtTreeSet.distinct_toList.imp Std.ReflCmp.ne_of_cmp_ne_eq
  exact distinct.filter _

theorem foldl_refreshFile_with_batches (conditions : Conditions) (paths : List String) (run : Run)
    (number : Nat) :
    paths.foldl (Run.refreshFile conditions) { run with batches := number } =
      { paths.foldl (Run.refreshFile conditions) run with batches := number } := by
  induction paths generalizing run with
  | nil => rfl
  | cons first rest inductionHypothesis =>
      exact inductionHypothesis (run.refreshFile conditions first)

/-- Batches only cut a round into parts. -/
theorem refreshBatches_eq (never : ∀ number, conditions.cancelled number = false)
    (batches : List (List String)) (run : Run) :
    run.refreshBatches conditions batches =
      { batches.flatten.foldl (Run.refreshFile conditions) run with
        batches := run.batches + batches.length } := by
  induction batches generalizing run with
  | nil => rfl
  | cons batch rest inductionHypothesis =>
      have counted := foldl_refreshFile_with_batches conditions batch run (run.batches + 1)
      rw [refreshBatches, never, if_neg (by simp), counted, inductionHypothesis,
        foldl_refreshFile_with_batches conditions rest.flatten
          (batch.foldl (Run.refreshFile conditions) run),
        List.flatten_cons, List.foldl_append, List.length_cons, Nat.add_comm rest.length,
        ← Nat.add_assoc]

theorem round_eq (conditions : Conditions)
    (never : ∀ number, conditions.cancelled number = false) (run : Run) :
    ∃ number, run.round conditions =
      { run.pending.foldl (Run.refreshFile conditions) run with batches := number } := by
  rw [round, refreshBatches_eq never, flatten_batchesOf]
  exact ⟨_, rfl⟩

theorem Sound.with_batches {tree : FileTree} {start : Model} {taken : List String}
    (sound : Sound tree start taken run) (number : Nat) :
    Sound tree start taken { run with batches := number } :=
  ⟨sound.workspace_eq, sound.enabled_eq, sound.settled, sound.failed, sound.count, sound.alive⟩

/-- After a round nothing is pending, unless fewer records are out of step. -/
theorem Sound.round {start : Model} {taken : List String}
    (never : ∀ number, conditions.cancelled number = false)
    (sound : Sound conditions.tree start taken run) :
    Sound conditions.tree start (taken ++ run.pending) (run.round conditions) ∧
      ((run.round conditions).pending = [] ∨
        ((run.round conditions).model.outOfStep conditions.tree).size <
          (run.model.outOfStep conditions.tree).size) := by
  obtain ⟨soundAfter, advances⟩ := foldl_refreshFile run.pending run taken (nodup_pending run)
    (fun path member => ((mem_pending run path).mp member).1)
    (fun path member => ((mem_pending run path).mp member).2) sound
  obtain ⟨number, equal⟩ := round_eq conditions never run
  rw [equal]
  refine ⟨soundAfter.with_batches number, ?_⟩
  rcases advances.progress with quiet | smaller
  · left
    apply List.eq_nil_iff_forall_not_mem.mpr
    intro path member
    obtain ⟨stale, untried⟩ := (mem_pending _ path).mp member
    obtain ⟨wasStale, failed⟩ := quiet path stale
    by_cases earlier : path ∈ run.failed
    · exact untried (advances.failed path earlier)
    · exact untried (failed ((mem_pending run path).mpr ⟨wasStale, earlier⟩))
  · exact Or.inr smaller

/-! ## All rounds -/

/-- Round after round until nothing is pending: the run drains, taking up the given paths. -/
inductive Drains (conditions : Conditions) : Run → List String → Run → Prop where
  | done {run : Run} (drained : run.pending = []) : Drains conditions run [] run
  | round {run final : Run} {paths : List String} (work : ¬ run.pending = [])
      (alive : (run.round conditions).report.cancelled = false)
      (rest : Drains conditions (run.round conditions) paths final) :
      Drains conditions run (run.pending ++ paths) final

theorem Drains.pending_eq_nil {final : Run} {paths : List String}
    (drains : Drains conditions run paths final) : final.pending = [] := by
  induction drains with
  | done drained => exact drained
  | round _ _ _ inductionHypothesis => exact inductionHypothesis

theorem rounds_of_drained (conditions : Conditions) (fuel : Nat) (drained : run.pending = []) :
    run.rounds conditions fuel = run := by
  cases fuel with
  | zero => rfl
  | succ more => rw [rounds_succ, if_pos drained]

/-- As many rounds as there are records out of step, and one more, are enough. -/
theorem Sound.rounds {start : Model} (conditions : Conditions)
    (never : ∀ number, conditions.cancelled number = false) (fuel : Nat) (run : Run)
    (taken : List String) (sound : Sound conditions.tree start taken run)
    (enough : (run.model.outOfStep conditions.tree).size < fuel) :
    ∃ paths, Drains conditions run paths (run.rounds conditions fuel) ∧
      Sound conditions.tree start (taken ++ paths) (run.rounds conditions fuel) := by
  induction fuel generalizing run taken with
  | zero => exact absurd enough (by omega)
  | succ more inductionHypothesis =>
      by_cases drained : run.pending = []
      · rw [rounds_of_drained conditions _ drained]
        exact ⟨[], .done drained, by simpa using sound⟩
      · obtain ⟨soundAfter, progress⟩ := sound.round never
        rw [rounds_succ, if_neg drained, soundAfter.alive, if_neg (by simp)]
        rcases progress with settled | smaller
        · rw [rounds_of_drained conditions _ settled]
          refine ⟨run.pending, ?_, soundAfter⟩
          simpa using Drains.round drained soundAfter.alive (.done settled)
        · obtain ⟨paths, drains, soundFinal⟩ := inductionHypothesis (run.round conditions)
            (taken ++ run.pending) soundAfter (by omega)
          rw [List.append_assoc] at soundFinal
          exact ⟨run.pending ++ paths, .round drained soundAfter.alive drains, soundFinal⟩

/-- At the end, what is stale is what has failed. -/
theorem Drains.failed_eq {tree : FileTree} {start : Model} {final : Run}
    {paths : List String} (drains : Drains conditions run paths final)
    (sound : Sound tree start paths final) :
    final.failed = final.model.catalog.staleness.dirty := by
  apply Std.ExtTreeSet.ext_mem
  intro path
  constructor
  · exact fun failed => (sound.failed path failed).2.2
  · intro dirty
    apply Classical.byContradiction
    intro untried
    have pending := (mem_pending final path).mpr ⟨dirty, untried⟩
    rw [drains.pending_eq_nil] at pending
    exact absurd pending (by simp)

theorem sound_start (tree : FileTree) (model : Model) :
    Sound tree model [] { model := model } where
  workspace_eq := rfl
  enabled_eq := rfl
  settled := by simp
  failed := by simp
  count := rfl
  alive := rfl

theorem Drains.mem_of_pending {final : Run} {paths : List String}
    (drains : Drains conditions run paths final) (member : path ∈ run.pending) : path ∈ paths := by
  cases drains with
  | done drained =>
      rw [drained] at member
      exact absurd member (by simp)
  | round _ _ _ => exact List.mem_append_left _ member

/-! ## A second run -/

/-- Files that cannot be read are counted, and nothing else happens. -/
theorem foldl_refreshFile_of_unreadable (conditions : Conditions) (paths : List String) (run : Run)
    (dirty : ∀ path ∈ paths, path ∈ run.model.catalog.staleness.dirty)
    (unreadable : ∀ path ∈ paths, run.model.Unreadable conditions.tree path) :
    paths.foldl (Run.refreshFile conditions) run =
      { run with
        report := { run.report with failed := run.report.failed + paths.length }
        failed := paths.foldl Std.ExtTreeSet.insert run.failed } := by
  induction paths generalizing run with
  | nil => rfl
  | cons first rest inductionHypothesis =>
      rw [List.foldl_cons, refreshFile_of_unreadable (dirty first (by simp))
        (unreadable first (by simp)), inductionHypothesis]
      · simp only [List.length_cons, List.foldl_cons, Nat.add_assoc, Nat.add_comm 1]
      · exact fun path member => dirty path (by simp [member])
      · exact fun path member => unreadable path (by simp [member])

theorem mem_foldl_insert (paths : List String) (set : Std.ExtTreeSet String) :
    path ∈ paths.foldl Std.ExtTreeSet.insert set ↔ path ∈ paths ∨ path ∈ set := by
  induction paths generalizing set with
  | nil => simp
  | cons first rest inductionHypothesis =>
      rw [List.foldl_cons, inductionHypothesis, Std.ExtTreeSet.mem_insert,
        Std.LawfulEqCmp.compare_eq_iff_eq, List.mem_cons, or_left_comm, or_assoc, eq_comm]

end Run

/-- If no stale file can be read, a run counts them and changes nothing. -/
theorem reindex_of_unreadable (model : Model) (tree : FileTree) (now : Timestamp)
    (unreadable : ∀ path ∈ model.catalog.staleness.dirty, model.Unreadable tree path) :
    model.reindex { tree := tree, now := now } =
      ({ failed := model.catalog.listStale.length }, model) := by
  have pending : Run.pending { model := model } = model.catalog.listStale := by
    simp [Run.pending]
  have dirty : ∀ path ∈ model.catalog.listStale, path ∈ model.catalog.staleness.dirty :=
    fun path => (Staleness.mem_listStale _ path).mp
  unfold reindex
  rw [Run.rounds_succ, pending]
  by_cases drained : model.catalog.listStale = []
  · rw [if_pos drained, drained]
    rfl
  · obtain ⟨number, equal⟩ := Run.round_eq { tree := tree, now := now } (fun _ => rfl)
      { model := model }
    have counted := Run.foldl_refreshFile_of_unreadable { tree := tree, now := now }
      model.catalog.listStale { model := model } dirty
      (fun path member => unreadable path (dirty path member))
    rw [pending, counted] at equal
    rw [if_neg drained, equal, if_neg (by simp), Run.rounds_of_drained]
    · simp
    · apply List.eq_nil_iff_forall_not_mem.mpr
      intro path member
      obtain ⟨stale, untried⟩ := (Run.mem_pending _ path).mp member
      apply untried
      exact (Run.mem_foldl_insert _ _).mpr (Or.inl ((Staleness.mem_listStale _ path).mpr stale))

/-! ## Every run drains -/

theorem drains_reindex (model : Model) (tree : FileTree) (now : Timestamp) :
    ∃ paths final,
      Run.Drains { tree := tree, now := now } { model := model } paths final ∧
      Run.Sound tree model paths final ∧
      model.reindex { tree := tree, now := now } = (final.report, final.model) := by
  have enough : (model.outOfStep tree).size < model.catalog.records.size + 1 :=
    Nat.lt_succ_of_le Std.ExtTreeMap.size_filter_le_size
  obtain ⟨paths, drains, sound⟩ := Run.Sound.rounds { tree := tree, now := now } (fun _ => rfl) _
    { model := model } [] (Run.sound_start tree model) enough
  rw [List.nil_append] at sound
  exact ⟨paths, _, drains, sound, rfl⟩

/-- What is still stale after a run that was not cancelled cannot be read. -/
theorem unreadable_of_dirty_reindex {model : Model} {tree : FileTree} {now : Timestamp}
    {path : String}
    (dirty : path ∈ (model.reindex { tree := tree, now := now }).2.catalog.staleness.dirty) :
    model.Unreadable tree path := by
  obtain ⟨paths, final, drains, sound, equal⟩ := drains_reindex model tree now
  rw [equal, ← drains.failed_eq sound] at dirty
  exact (sound.failed path dirty).2.1

/-- A run that is not cancelled takes up file after file until nothing is pending, however many
rounds that takes and however large the batches are. What is stale then is what could not be read;
every other file that was taken up is clean and in step, or gone with its record. Another run
changes nothing and counts the same files. -/
theorem reindex_drains (model : Model) (tree : FileTree) (now : Timestamp) :
    ∃ paths final,
      Run.Drains { tree := tree, now := now } { model := model } paths final ∧
      model.reindex { tree := tree, now := now } = (final.report, final.model) ∧
      final.report.cancelled = false ∧
      (∀ path ∈ model.catalog.listStale, path ∈ paths) ∧
      (∀ path, path ∈ final.model.catalog.listStale ↔ path ∈ final.failed) ∧
      (∀ path, path ∈ final.failed ↔ path ∈ paths ∧ model.Unreadable tree path) ∧
      final.report.failed = final.model.catalog.listStale.length ∧
      (∀ path ∈ paths, ¬ path ∈ final.failed →
        (final.model.isStale path = false ∧ ∃ record bytes,
          final.model.catalog.records[path]? = some record ∧
            model.workspace.read tree path = .ok bytes ∧
            record.fingerprint = fingerprint bytes) ∨
        (final.model.catalog.records[path]? = none ∧
          model.workspace.read tree path = .error .missing)) ∧
      ∀ later, final.model.reindex { tree := tree, now := later } =
        ({ failed := final.report.failed }, final.model) := by
  obtain ⟨paths, final, drains, sound, equal⟩ := drains_reindex model tree now
  refine ⟨paths, final, drains, equal, sound.alive, ?_⟩
  have stale : ∀ path, path ∈ final.model.catalog.listStale ↔ path ∈ final.failed := by
    intro path
    rw [drains.failed_eq sound, Catalog.listStale, Staleness.mem_listStale]
  have count : final.report.failed = final.model.catalog.listStale.length := by
    rw [sound.count, drains.failed_eq sound]
    exact Std.ExtTreeSet.length_toList.symm
  refine ⟨?_, stale, ?_, count, ?_, ?_⟩
  · intro path member
    apply drains.mem_of_pending
    rw [Run.mem_pending]
    exact ⟨(Staleness.mem_listStale _ path).mp member, by simp⟩
  · intro path
    constructor
    · intro failed
      obtain ⟨taken, unreadable, _⟩ := sound.failed path failed
      exact ⟨taken, unreadable⟩
    · rintro ⟨taken, unreadable⟩
      exact (sound.settled path taken).resolve_right fun both => both.1 unreadable
  · intro path taken readable
    obtain ⟨_, inStep⟩ := (sound.settled path taken).resolve_left readable
    unfold InStep at inStep
    rw [sound.workspace_eq] at inStep
    rcases inStep with ⟨known, settled⟩ | gone
    · left
      refine ⟨?_, settled⟩
      have clean : ¬ path ∈ final.model.catalog.staleness.dirty := by
        rw [← Staleness.mem_listStale]
        exact fun dirty => readable ((stale path).mp dirty)
      exact (Staleness.isStale_eq_false _ path).mpr ⟨clean, known⟩
    · exact Or.inr gone
  · intro later
    rw [count]
    apply reindex_of_unreadable
    intro path dirty
    rw [← Staleness.mem_listStale] at dirty
    exact (sound.unreadable_iff path).mpr (sound.failed path ((stale path).mp dirty)).2.1

end CodeIndex.Model
