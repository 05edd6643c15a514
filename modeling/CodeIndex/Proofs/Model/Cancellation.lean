import CodeIndex.Proofs.Model.Confluence

/-!
Contract: a run that is cancelled loses nothing.

Owns:
- `Model.refreshAll`: files brought up to date one after the other;
- `Model.Run.Plans`: the batches of a run, if it is not cancelled;
- `Model.Run.StopsAt`: the number of the batch before which a run is cancelled;
- `Model.reindex_cancelled`: what is left of a run that is cancelled, and that it can be taken up
  again.

A run is cancelled between batches. The batches of a round are cut from what is stale when it
begins, so they do not depend on when the run is cancelled.
-/

set_option autoImplicit false

namespace CodeIndex

/-! ## Files that are marked -/

namespace Catalog

variable (catalog : Catalog) {dependent : String}

theorem mem_dirty_markImporters (path : String)
    (marked : dependent ∈ (catalog.markImporters path).1) :
    dependent ∈ (catalog.markImporters path).2.staleness.dirty := by
  rw [fst_markImporters] at marked
  rw [markImporters_eq]
  exact (Staleness.mem_dirty_foldl_markDirty _ dependent _).mpr (Or.inl marked)

theorem mem_dirty_replace (record : Record) (marked : dependent ∈ (catalog.replace record).1) :
    dependent ∈ (catalog.replace record).2.staleness.dirty := by
  by_cases exposes : Record.Exposes catalog.records[record.path]? (some record)
  · rw [replace_of_exposes exposes] at marked ⊢
    exact mem_dirty_markImporters _ _ marked
  · rw [replace_of_hides exposes] at marked
    exact absurd marked (by simp)

theorem mem_dirty_removeFile (path : String)
    (marked : dependent ∈ (catalog.removeFile path).1) :
    dependent ∈ (catalog.removeFile path).2.staleness.dirty := by
  by_cases exposes : Record.Exposes catalog.records[path]? none
  · rw [removeFile_of_exposes exposes] at marked ⊢
    exact mem_dirty_markImporters _ _ marked
  · rw [removeFile_of_hides exposes] at marked
    exact absurd marked (by simp)

/-- The files that bringing a record up to date gives as its dependents are stale then. -/
theorem mem_dirty_getEntry (workspace : Workspace) (tree : FileTree) (path : String)
    (now : Timestamp)
    (marked : dependent ∈ (catalog.getEntry workspace tree path now).1.dependents) :
    dependent ∈ (catalog.getEntry workspace tree path now).2.staleness.dirty := by
  have spec := catalog.getEntry_spec workspace tree path now
  generalize (catalog.getEntry workspace tree path now).1 = outcome at spec marked
  generalize (catalog.getEntry workspace tree path now).2 = after at spec ⊢
  cases spec with
  | disabled off => exact absurd marked List.not_mem_nil
  | cached record clean found => exact absurd marked List.not_mem_nil
  | absent pending unreadable => exact absurd marked List.not_mem_nil
  | refreshed bytes old read found same => exact absurd marked List.not_mem_nil
  | reindexed bytes read differs => exact catalog.mem_dirty_replace _ marked
  | removed missing => exact catalog.mem_dirty_removeFile path marked

end Catalog

namespace Model

/-! ## Files taken up in order -/

/-- Brings files up to date one after the other. -/
def refreshAll (model : Model) (tree : FileTree) (now : Timestamp) (paths : List String) : Model :=
  paths.foldl (fun reached path => (reached.refresh tree path now).2) model

section RefreshAll

variable {model : Model} {tree : FileTree} {now : Timestamp}

theorem workspace_refreshAll (model : Model) (tree : FileTree) (now : Timestamp)
    (paths : List String) :
    (model.refreshAll tree now paths).workspace = model.workspace :=
  List.foldlRecOn (motive := fun reached : Model => reached.workspace = model.workspace) paths _ rfl
    fun reached same path _ => (workspace_refresh reached tree path now).trans same

theorem unreadable_refreshAll (model : Model) (tree : FileTree) (now : Timestamp)
    (paths : List String) (other : String) :
    (model.refreshAll tree now paths).Unreadable tree other ↔ model.Unreadable tree other :=
  List.foldlRecOn (motive := fun reached : Model =>
    reached.Unreadable tree other ↔ model.Unreadable tree other) paths _ Iff.rfl
    fun reached same path _ => (unreadable_refresh reached tree path now other).trans same

/-- What is stale stays so until it is taken up and can be read. -/
theorem mem_dirty_refreshAll {path : String} (paths : List String)
    (dirty : path ∈ model.catalog.staleness.dirty)
    (left : path ∈ paths → model.Unreadable tree path) :
    path ∈ (model.refreshAll tree now paths).catalog.staleness.dirty := by
  induction paths generalizing model with
  | nil => exact dirty
  | cons first rest inductionHypothesis =>
      have kept : path ∈ (model.refresh tree first now).2.catalog.staleness.dirty := by
        rcases model.refresh_eq_self_or_spreads tree first now with same | ⟨readable, spreads⟩
        · rw [same]
          exact dirty
        · apply spreads.sets.kept path _ dirty
          rintro rfl
          exact readable (left (by simp))
      apply inductionHypothesis kept
      rw [unreadable_refresh]
      exact fun member => left (by simp [member])

theorem records_refreshAll {path : String} (paths : List String)
    (left : path ∈ paths → model.Unreadable tree path) :
    (model.refreshAll tree now paths).catalog.records[path]? = model.catalog.records[path]? := by
  induction paths generalizing model with
  | nil => rfl
  | cons first rest inductionHypothesis =>
      have kept : (model.refresh tree first now).2.catalog.records[path]? =
          model.catalog.records[path]? := by
        rcases model.refresh_eq_self_or_spreads tree first now with same | ⟨readable, spreads⟩
        · rw [same]
        · apply spreads.sets.others path
          rintro rfl
          exact readable (left (by simp))
      rw [← kept]
      apply inductionHypothesis
      rw [unreadable_refresh]
      exact fun member => left (by simp [member])

theorem refreshAll_append (model : Model) (tree : FileTree) (now : Timestamp)
    (earlier later : List String) :
    model.refreshAll tree now (earlier ++ later) =
      (model.refreshAll tree now earlier).refreshAll tree now later :=
  List.foldl_append

/-- A file that is marked on the way stays stale until it is taken up after that. -/
theorem mem_dirty_of_marked {before after : List String} {path dependent : String}
    (marked : dependent ∈ ((model.refreshAll tree now before).catalog.getEntry model.workspace tree
      path now).1.dependents)
    (left : dependent ∈ after → model.Unreadable tree dependent) :
    dependent ∈ (model.refreshAll tree now (before ++ path :: after)).catalog.staleness.dirty := by
  rw [refreshAll_append]
  have same := workspace_refreshAll model tree now before
  rw [← unreadable_refreshAll model tree now before dependent] at left
  generalize model.refreshAll tree now before = reached at marked same left ⊢
  rw [← same] at marked
  have dirty : dependent ∈ (reached.refresh tree path now).2.catalog.staleness.dirty := by
    rw [catalog_refresh]
    exact reached.catalog.mem_dirty_getEntry reached.workspace tree path now marked
  rw [← unreadable_refresh reached tree path now] at left
  exact mem_dirty_refreshAll after dirty left

end RefreshAll

/-! ## Batches -/

namespace Run

/-- The batches that a run takes up, if it is not cancelled: round after round, all that is pending
when the round begins, until nothing is. -/
inductive Plans (tree : FileTree) (now : Timestamp) : Run → List (List String) → Prop where
  | done {run : Run} (drained : run.pending = []) : Plans tree now run []
  | round {run : Run} {rest : List (List String)} (work : ¬ run.pending = [])
      (next : Plans tree now (run.round { tree := tree, now := now }) rest) :
      Plans tree now run
        (batchesOf (run.model.config.index.batchSize - 1) run.pending ++ rest)

/-- A run over so many batches, the first of which has the given number, is cancelled before one of
them, or after all. -/
structure StopsAt (cancelled : Nat → Bool) (first length count : Nat) : Prop where
  within : count ≤ length
  before : ∀ number, number < count → cancelled (first + number) = false
  stop : count < length → cancelled (first + count) = true

namespace StopsAt

variable {cancelled : Nat → Bool} {first length count : Nat}

/-- The batches of one round, and those of the rounds after it. -/
theorem append {more later : Nat} (all : StopsAt cancelled first length length)
    (rest : StopsAt cancelled (first + length) more later) :
    StopsAt cancelled first (length + more) (length + later) where
  within := Nat.add_le_add_left rest.within length
  before := by
    intro number below
    by_cases early : number < length
    · exact all.before number early
    · have kept := rest.before (number - length) (by omega)
      rwa [show first + length + (number - length) = first + number by omega] at kept
  stop := by
    intro below
    have stopped := rest.stop (by omega)
    rwa [Nat.add_assoc] at stopped

/-- A round that is cancelled ends the run. -/
theorem extend (stops : StopsAt cancelled first length count) (early : count < length)
    (more : Nat) : StopsAt cancelled first (length + more) count where
  within := Nat.le_trans stops.within (Nat.le_add_right length more)
  before := stops.before
  stop := fun _ => stops.stop early

end StopsAt

/-- A run over batches takes up so many of them, and then is cancelled or has taken up all. -/
structure Takes (tree : FileTree) (now : Timestamp) (cancelled : Nat → Bool) (run : Run)
    (batches : List (List String)) (count : Nat) (after : Run) : Prop where
  stops : StopsAt cancelled run.batches batches.length count
  model : after.model = run.model.refreshAll tree now (batches.take count).flatten
  ends : after.report.cancelled = true ↔ count < batches.length

namespace Takes

variable {tree : FileTree} {now : Timestamp} {cancelled : Nat → Bool} {run middle after : Run}
  {first rest : List (List String)} {count : Nat}

theorem nil (alive : run.report.cancelled = false) : Takes tree now cancelled run [] 0 run :=
  ⟨⟨Nat.le_refl 0, by simp, by simp⟩, rfl, by simp [alive]⟩

theorem append (earlier : Takes tree now cancelled run first first.length middle)
    (counted : middle.batches = run.batches + first.length)
    (later : Takes tree now cancelled middle rest count after) :
    Takes tree now cancelled run (first ++ rest) (first.length + count) after where
  stops := by
    rw [List.length_append]
    exact earlier.stops.append (counted ▸ later.stops)
  model := by
    rw [later.model, earlier.model, List.take_length, List.take_length_add_append,
      List.flatten_append, refreshAll_append]
  ends := by
    rw [later.ends, List.length_append, Nat.add_lt_add_iff_left]

theorem extend (earlier : Takes tree now cancelled run first count after)
    (early : count < first.length) :
    Takes tree now cancelled run (first ++ rest) count after where
  stops := by
    rw [List.length_append]
    exact earlier.stops.extend early rest.length
  model := by
    rw [earlier.model, List.take_append_of_le_length (Nat.le_of_lt early)]
  ends := by
    rw [earlier.ends, List.length_append]
    omega

end Takes

section Batches

variable {tree : FileTree} {now : Timestamp}

theorem model_foldl_refreshFile (conditions : Conditions) (paths : List String) (run : Run) :
    (paths.foldl (refreshFile conditions) run).model =
      run.model.refreshAll conditions.tree conditions.now paths := by
  induction paths generalizing run with
  | nil => rfl
  | cons first rest inductionHypothesis =>
      exact inductionHypothesis (run.refreshFile conditions first)

theorem cancelled_foldl_refreshFile (conditions : Conditions) (paths : List String) (run : Run) :
    (paths.foldl (refreshFile conditions) run).report.cancelled = run.report.cancelled := by
  refine List.foldlRecOn (motive := fun reached : Run =>
    reached.report.cancelled = run.report.cancelled) paths _ rfl ?_
  intro reached same path _
  rw [← same]
  unfold refreshFile
  generalize reached.model.refresh conditions.tree path conditions.now = result
  obtain ⟨status, model⟩ := result
  cases status <;> rfl

theorem batches_foldl_refreshFile (conditions : Conditions) (paths : List String) (run : Run) :
    (paths.foldl (refreshFile conditions) run).batches = run.batches :=
  List.foldlRecOn (motive := fun reached : Run => reached.batches = run.batches) paths _ rfl
    fun _ same _ _ => same

/-- A run over batches is as any other if it is not cancelled. -/
theorem takes_refreshBatches (cancelled : Nat → Bool) (batches : List (List String)) (run : Run)
    (alive : run.report.cancelled = false) :
    ∃ count,
      Takes tree now cancelled run batches count
        (run.refreshBatches ⟨tree, now, cancelled⟩ batches) ∧
      (count = batches.length →
        run.refreshBatches ⟨tree, now, cancelled⟩ batches =
          run.refreshBatches { tree := tree, now := now } batches) := by
  induction batches generalizing run with
  | nil => exact ⟨0, .nil alive, fun _ => rfl⟩
  | cons batch rest inductionHypothesis =>
      by_cases stop : cancelled run.batches = true
      · have ends : run.refreshBatches ⟨tree, now, cancelled⟩ (batch :: rest) =
            { run with report := { run.report with cancelled := true } } := by
          rw [refreshBatches, if_pos stop]
        rw [ends]
        exact ⟨0, ⟨⟨Nat.zero_le _, by simp, fun _ => stop⟩, rfl, by simp⟩, by simp⟩
      · let next : Run := batch.foldl (refreshFile { tree := tree, now := now })
          { run with batches := run.batches + 1 }
        have goes : run.refreshBatches ⟨tree, now, cancelled⟩ (batch :: rest) =
            next.refreshBatches ⟨tree, now, cancelled⟩ rest := by
          rw [refreshBatches, if_neg stop]
          rfl
        have wouldGo : run.refreshBatches { tree := tree, now := now } (batch :: rest) =
            next.refreshBatches { tree := tree, now := now } rest := by
          rw [refreshBatches, if_neg (by simp)]
        have nextAlive : next.report.cancelled = false :=
          (cancelled_foldl_refreshFile _ batch _).trans alive
        have counted : next.batches = run.batches + [batch].length :=
          batches_foldl_refreshFile _ batch _
        have taken : Takes tree now cancelled run [batch] [batch].length next := by
          refine ⟨⟨Nat.le_refl _, ?_, by simp⟩, ?_, by simp [nextAlive]⟩
          · intro number below
            have isFirst : number = 0 := by simpa using below
            rw [isFirst]
            exact Bool.eq_false_iff.mpr stop
          · simpa using model_foldl_refreshFile { tree := tree, now := now } batch
              { run with batches := run.batches + 1 }
        obtain ⟨count, later, same⟩ := inductionHypothesis next nextAlive
        rw [goes, wouldGo]
        refine ⟨_, taken.append counted later, fun all => same ?_⟩
        simp only [List.length_cons, List.length_nil] at all
        omega

theorem batches_round (run : Run) :
    (run.round { tree := tree, now := now }).batches = run.batches +
      (batchesOf (run.model.config.index.batchSize - 1) run.pending).length := by
  rw [round, refreshBatches_eq fun _ => rfl]

/-- The batches of a run are the same whenever it is cancelled. -/
theorem takes_rounds {start : Model} (now : Timestamp) (fuel : Nat) (run : Run)
    (taken : List String) (sound : Sound tree start taken run)
    (enough : (run.model.outOfStep tree).size < fuel) :
    ∃ batches, Plans tree now run batches ∧ ∀ cancelled, ∃ count,
      Takes tree now cancelled run batches count (run.rounds ⟨tree, now, cancelled⟩ fuel) := by
  induction fuel generalizing run taken with
  | zero => exact absurd enough (by omega)
  | succ more inductionHypothesis =>
      by_cases drained : run.pending = []
      · refine ⟨[], .done drained, fun cancelled => ⟨0, ?_⟩⟩
        rw [rounds_of_drained _ _ drained]
        exact .nil sound.alive
      let conditions : Conditions := { tree := tree, now := now }
      let next : Run := run.round conditions
      have never : ∀ number, conditions.cancelled number = false := fun _ => rfl
      obtain ⟨soundAfter, progress⟩ := Sound.round never sound
      obtain ⟨rest, plans, later⟩ : ∃ rest, Plans tree now next rest ∧ ∀ cancelled, ∃ count,
          Takes tree now cancelled next rest count
            (next.rounds ⟨tree, now, cancelled⟩ more) := by
        rcases progress with settled | smaller
        · refine ⟨[], .done settled, fun cancelled => ⟨0, ?_⟩⟩
          rw [rounds_of_drained _ _ settled]
          exact .nil soundAfter.alive
        · have fewer := Nat.lt_of_lt_of_le smaller (Nat.le_of_lt_succ enough)
          exact inductionHypothesis next _ soundAfter fewer
      refine ⟨_, .round drained plans, fun cancelled => ?_⟩
      obtain ⟨count, once, same⟩ : ∃ count,
          Takes tree now cancelled run
            (batchesOf (run.model.config.index.batchSize - 1) run.pending) count
            (run.round ⟨tree, now, cancelled⟩) ∧
          (count = (batchesOf (run.model.config.index.batchSize - 1) run.pending).length →
            run.round ⟨tree, now, cancelled⟩ = next) :=
        takes_refreshBatches cancelled _ run sound.alive
      rw [rounds_succ, if_neg drained]
      by_cases early :
          count < (batchesOf (run.model.config.index.batchSize - 1) run.pending).length
      · rw [if_pos (once.ends.mpr early)]
        exact ⟨count, once.extend early⟩
      · have all := Nat.le_antisymm once.stops.within (Nat.le_of_not_lt early)
        have alive : next.report.cancelled = false := soundAfter.alive
        rw [same all, all] at once
        rw [same all, alive, if_neg (by simp)]
        obtain ⟨further, takes⟩ := later cancelled
        exact ⟨_, once.append (batches_round run) takes⟩

end Batches

end Run

/-! ## Cancelled runs -/

/-- A path is among those taken up, and its file can be read or is gone. -/
def Refreshes (start : Model) (tree : FileTree) (taken : List String) (path : String) : Prop :=
  path ∈ taken ∧ ¬ start.Unreadable tree path

/-- What is left of a run that took up the given paths and then was cancelled. -/
structure Keeps (start : Model) (tree : FileTree) (now : Timestamp) (taken : List String)
    (stopped : Model) : Prop where
  refreshed : stopped = start.refreshAll tree now taken
  stale : ∀ path ∈ start.catalog.listStale, ¬ Refreshes start tree taken path →
    path ∈ stopped.catalog.listStale
  marked : ∀ before path after, taken = before ++ path :: after →
    ∀ dependent ∈ ((start.refreshAll tree now before).catalog.getEntry start.workspace tree path
      now).1.dependents, ¬ Refreshes start tree after dependent →
    dependent ∈ stopped.catalog.listStale
  records : ∀ path, ¬ Refreshes start tree taken path →
    stopped.catalog.records[path]? = start.catalog.records[path]?

theorem keeps_refreshAll (start : Model) (tree : FileTree) (now : Timestamp)
    (taken : List String) : Keeps start tree now taken (start.refreshAll tree now taken) := by
  have left : ∀ {paths : List String} {path : String},
      ¬ Refreshes start tree paths path →
        path ∈ paths → start.Unreadable tree path := by
    intro paths path unrefreshed member
    exact Classical.byContradiction fun readable => unrefreshed ⟨member, readable⟩
  constructor
  case refreshed => rfl
  case stale =>
    intro path listed unrefreshed
    rw [Catalog.listStale, Staleness.mem_listStale] at listed ⊢
    exact mem_dirty_refreshAll taken listed (left unrefreshed)
  case marked =>
    rintro before path after rfl dependent given unrefreshed
    rw [Catalog.listStale, Staleness.mem_listStale]
    exact mem_dirty_of_marked given (left unrefreshed)
  case records => exact fun path unrefreshed => records_refreshAll taken (left unrefreshed)

/-- A run that was cut short and another one after it come to what one run would have. -/
theorem reindex_reindex {start : Model} (exact : start.catalog.Exact) (conditions : Conditions)
    (now later : Timestamp) :
    ((start.reindex conditions).2.reindex { tree := conditions.tree, now := later }).2.SameEntries
      (start.reindex { tree := conditions.tree, now := now }).2 := by
  have begun := Partway.refl exact conditions.tree
  have stopped := begun.reindex exact conditions
  have again := stopped.reindex exact { tree := conditions.tree, now := later }
  have whole := begun.reindex exact { tree := conditions.tree, now := now }
  refine again.agree whole (fun path dirty => ?_) fun path => unreadable_of_dirty_reindex
  unfold Unreadable
  rw [← stopped.workspace, ← stopped.enabled]
  exact unreadable_of_dirty_reindex dirty

/-- Whenever a run is cancelled, it has taken up whole batches of those that it would have taken up,
in order, and nothing else has happened. What was stale, or became so, and was not brought up to
date after that is still stale. Another run then comes to the same records and stale files as one
that is never cancelled. -/
theorem reindex_cancelled (workspace : Workspace) (config : Config) (origin : Origin)
    (actions : List Action) (enabled : Bool) (tree : FileTree) (now : Timestamp)
    (cancelled : Nat → Bool) :
    let start := reached workspace config origin actions enabled
    let stopped := start.reindex { tree := tree, now := now, cancelled := cancelled }
    ∃ batches count, Run.Plans tree now { model := start } batches ∧
      Run.StopsAt cancelled 0 batches.length count ∧
      (stopped.1.cancelled = true ↔ count < batches.length) ∧
      Keeps start tree now (batches.take count).flatten stopped.2 ∧
      ∀ later whole, (stopped.2.reindex { tree := tree, now := later }).2.SameEntries
        (start.reindex { tree := tree, now := whole }).2 := by
  intro start stopped
  have exact : start.catalog.Exact := exact_reached workspace config origin actions enabled
  have enough : (start.outOfStep tree).size < start.catalog.records.size + 1 :=
    Nat.lt_succ_of_le Std.ExtTreeMap.size_filter_le_size
  obtain ⟨batches, plans, takes⟩ := Run.takes_rounds now _ { model := start } []
    (Run.sound_start tree start) enough
  obtain ⟨count, taken⟩ := takes cancelled
  have kept := keeps_refreshAll start tree now (batches.take count).flatten
  rw [← taken.model] at kept
  refine ⟨batches, count, plans, taken.stops, taken.ends, kept, fun later whole => ?_⟩
  exact reindex_reindex exact ⟨tree, now, cancelled⟩ whole later

end Model

end CodeIndex
