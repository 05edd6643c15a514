import CodeIndex.Model.Reindex
import CodeIndex.Proofs.Catalog.Entry

/-!
Contract: what bringing one file up to date can come to, and what a report of a change does.

Owns:
- `Model.Unreadable`: no record can be made of a path;
- `Model.Refreshed`: the five things that a refresh can do, each with its reason;
- `Model.refresh_spec`: every refresh does one of them;
- `Workspace.renewal`, `Model.refresh_eq_self_or_spreads`: the same in short, as to the catalog;
- `Model.apply_of_there`: what a report that a file is there does;
- `Model.reindex_induction`: what holds after every refresh holds after every run.
-/

set_option autoImplicit false

namespace CodeIndex

namespace Workspace

/-- The record of a path after its file was read: the one before, if the bytes are the same; a new
one; or none. -/
def renewal (workspace : Workspace) (tree : FileTree) (path : String) (now : Timestamp)
    (old : Option Record) : Option Record :=
  match workspace.read tree path, old with
  | .ok bytes, some kept =>
      if kept.fingerprint = fingerprint bytes then some { kept with lastIndexed := now }
      else some (Record.ofBytes path bytes now)
  | .ok bytes, none => some (Record.ofBytes path bytes now)
  | .error _, _ => none

section Renewal

variable {workspace : Workspace} {tree : FileTree} {path : String} {bytes : ByteArray}

theorem renewal_of_same {kept : Record} (read : workspace.read tree path = .ok bytes)
    (same : kept.fingerprint = fingerprint bytes) (now : Timestamp) :
    workspace.renewal tree path now (some kept) = some { kept with lastIndexed := now } := by
  unfold renewal
  rw [read]
  exact if_pos same

theorem renewal_of_differs {old : Option Record} (read : workspace.read tree path = .ok bytes)
    (differs : ∀ kept, old = some kept → ¬ kept.fingerprint = fingerprint bytes)
    (now : Timestamp) :
    workspace.renewal tree path now old = some (Record.ofBytes path bytes now) := by
  unfold renewal
  rw [read]
  cases old with
  | none => rfl
  | some kept => exact if_neg (differs kept rfl)

theorem renewal_of_error {reason : ReadError} (failed : workspace.read tree path = .error reason)
    (now : Timestamp) (old : Option Record) : workspace.renewal tree path now old = none := by
  unfold renewal
  rw [failed]

end Renewal

end Workspace

namespace Model

/-- No record can be made of a path: no file can be parsed, or this one cannot be read. -/
def Unreadable (model : Model) (tree : FileTree) (path : String) : Prop :=
  model.catalog.enabled = false ∨ model.workspace.Unreadable tree path

/-- What a refresh can do: nothing, because the record is clean; nothing, because the file cannot be
read; set the time of the record; make a new one; or forget the file. -/
inductive Refreshed (tree : FileTree) (path : String) (now : Timestamp) (before : Model) :
    Status → Model → Prop where
  | cached (clean : before.catalog.isStale path = false)
      (known : before.catalog.records[path]?.isSome) :
      Refreshed tree path now before .unchanged before
  | failed (unreadable : before.Unreadable tree path) :
      Refreshed tree path now before .failed before
  | unchanged (bytes : ByteArray) (old : Record)
      (read : before.workspace.read tree path = .ok bytes)
      (found : before.catalog.records[path]? = some old)
      (same : old.fingerprint = fingerprint bytes) :
      Refreshed tree path now before .unchanged
        { before with catalog := (before.catalog.refreshRecord path old now).2 }
  | indexed (bytes : ByteArray) (read : before.workspace.read tree path = .ok bytes)
      (differs : ∀ old, before.catalog.records[path]? = some old →
        ¬ old.fingerprint = fingerprint bytes) :
      Refreshed tree path now before .indexed
        ({ before with
          catalog := (before.catalog.replace (Record.ofBytes path bytes now)).2 }.addToViews
            (Record.ofBytes path bytes now))
  | removed (missing : before.workspace.read tree path = .error .missing) :
      Refreshed tree path now before .removed
        ({ before with catalog := (before.catalog.removeFile path).2 }.removeFromViews path)

theorem refresh_of_unreadable (model : Model) (tree : FileTree) (path : String) (now : Timestamp)
    (unreadable : model.Unreadable tree path)
    (stale : model.catalog.isStale path = true ∨ model.catalog.records[path]? = none) :
    model.refresh tree path now = (.failed, model) := by
  unfold refresh
  rcases unreadable with off | unreadable
  · rw [model.catalog.getEntry_of_disabled _ tree path now off]
  · rw [model.catalog.getEntry_of_unreadable _ tree path now stale unreadable]

/-- Every refresh does one of the five things. -/
theorem refresh_spec (model : Model) (tree : FileTree) (path : String) (now : Timestamp) :
    Refreshed tree path now model (model.refresh tree path now).1
      (model.refresh tree path now).2 := by
  have spec := model.catalog.getEntry_spec model.workspace tree path now
  unfold refresh
  generalize model.catalog.getEntry model.workspace tree path now = entry at spec ⊢
  obtain ⟨outcome, catalog⟩ := entry
  dsimp only at spec
  cases spec with
  | disabled off => exact .failed (.inl off)
  | cached record clean found => exact .cached clean (by simp [found])
  | absent _ unreadable => exact .failed (.inr unreadable)
  | refreshed bytes old read found same => exact .unchanged bytes old read found same
  | reindexed bytes read differs => exact .indexed bytes read differs
  | removed missing => exact .removed missing

/-- Nothing happens to a model if no record can be made of the path. -/
theorem refresh_eq_self {model : Model} {tree : FileTree} {path : String}
    (unreadable : model.Unreadable tree path) (now : Timestamp) :
    (model.refresh tree path now).2 = model := by
  by_cases stale : model.catalog.isStale path = true ∨ model.catalog.records[path]? = none
  · rw [refresh_of_unreadable model tree path now unreadable stale]
  · simp only [not_or, Bool.not_eq_true] at stale
    obtain ⟨record, found⟩ := Option.ne_none_iff_exists'.mp stale.2
    cases on : model.catalog.enabled <;> simp [refresh, Catalog.getEntry, on, stale.1, found]

/-- A refresh does nothing, or it sets the record of the path, and then the file can be read or is
gone. -/
theorem refresh_eq_self_or_spreads (model : Model) (tree : FileTree) (path : String)
    (now : Timestamp) :
    (model.refresh tree path now).2 = model ∨
      (¬ model.Unreadable tree path ∧
        Catalog.Spreads path
          (model.workspace.renewal tree path now model.catalog.records[path]?)
          model.catalog (model.refresh tree path now).2.catalog) := by
  by_cases unreadable : model.Unreadable tree path
  · exact Or.inl (refresh_eq_self unreadable now)
  · have spec := model.refresh_spec tree path now
    generalize (model.refresh tree path now).1 = status at spec
    generalize (model.refresh tree path now).2 = after at spec ⊢
    cases spec with
    | cached _ _ => exact Or.inl rfl
    | failed _ => exact Or.inl rfl
    | unchanged bytes old read found same =>
        right
        rw [found, Workspace.renewal_of_same read same]
        exact ⟨unreadable, Catalog.spreads_refreshRecord found now⟩
    | indexed bytes read differs =>
        have spreads := Catalog.spreads_replace model.catalog (Record.ofBytes path bytes now)
        rw [Record.path_ofBytes] at spreads
        right
        rw [Workspace.renewal_of_differs read differs]
        exact ⟨unreadable, spreads⟩
    | removed missing =>
        right
        rw [Workspace.renewal_of_error missing]
        exact ⟨unreadable, Catalog.spreads_removeFile model.catalog path⟩

theorem workspace_refresh (model : Model) (tree : FileTree) (path : String) (now : Timestamp) :
    (model.refresh tree path now).2.workspace = model.workspace := by
  have spec := model.refresh_spec tree path now
  generalize (model.refresh tree path now).1 = status at spec
  generalize (model.refresh tree path now).2 = after at spec ⊢
  cases spec <;> rfl

theorem config_refresh (model : Model) (tree : FileTree) (path : String) (now : Timestamp) :
    (model.refresh tree path now).2.config = model.config := by
  have spec := model.refresh_spec tree path now
  generalize (model.refresh tree path now).1 = status at spec
  generalize (model.refresh tree path now).2 = after at spec ⊢
  cases spec <;> rfl

/-- Whether files can be parsed does not change. -/
theorem enabled_refresh (model : Model) (tree : FileTree) (path : String) (now : Timestamp) :
    (model.refresh tree path now).2.catalog.enabled = model.catalog.enabled := by
  rcases model.refresh_eq_self_or_spreads tree path now with same | ⟨_, spreads⟩
  · rw [same]
  · exact spreads.sets.enabled

theorem unreadable_refresh (model : Model) (tree : FileTree) (path : String) (now : Timestamp)
    (other : String) :
    (model.refresh tree path now).2.Unreadable tree other ↔ model.Unreadable tree other := by
  unfold Unreadable
  rw [workspace_refresh, enabled_refresh]

/-! ## Reports -/

theorem apply_of_there (model : Model) {kind : EventKind} {path : String}
    (there : ¬ kind = .deleted) :
    model.apply { kind := kind, path := path } =
      { model with catalog := model.catalog.note (model.workspace.isIndexable path) path } := by
  unfold apply Catalog.note
  cases kind with
  | deleted => exact absurd rfl there
  | created => cases model.workspace.isIndexable path <;> rfl
  | changed => cases model.workspace.isIndexable path <;> rfl

/-! ## Runs -/

theorem flatten_batchesOf (extra : Nat) (paths : List String) :
    (batchesOf extra paths).flatten = paths := by
  fun_induction batchesOf extra paths with
  | case1 => rfl
  | case2 first rest inductionHypothesis =>
      rw [List.flatten_cons, inductionHypothesis, List.cons_append, List.take_append_drop]

namespace Run

/-- One round over all pending files. -/
def round (conditions : Conditions) (run : Run) : Run :=
  run.refreshBatches conditions
    (batchesOf (run.model.config.index.batchSize - 1) run.pending)

theorem rounds_succ (conditions : Conditions) (more : Nat) (run : Run) :
    run.rounds conditions (more + 1) =
      if run.pending = [] then run
      else if (run.round conditions).report.cancelled then run.round conditions
      else (run.round conditions).rounds conditions more := by
  rw [rounds, round]
  cases run.pending with
  | nil => rfl
  | cons first rest => simp

section Induction

variable {P : Model → Prop} {Q : String → Prop} {conditions : Conditions}
  (step : ∀ model path, P model → Q path →
    P (model.refresh conditions.tree path conditions.now).2)

include step

theorem foldl_refreshFile_induction (paths : List String) (run : Run) (holds : P run.model)
    (wanted : ∀ path ∈ paths, Q path) :
    P (paths.foldl (refreshFile conditions) run).model := by
  induction paths generalizing run with
  | nil => exact holds
  | cons first rest inductionHypothesis =>
      apply inductionHypothesis
      · exact step run.model first holds (wanted first (by simp))
      · exact fun path member => wanted path (by simp [member])

theorem refreshBatches_induction (batches : List (List String)) (run : Run) (holds : P run.model)
    (wanted : ∀ path ∈ batches.flatten, Q path) :
    P (run.refreshBatches conditions batches).model := by
  induction batches generalizing run with
  | nil => exact holds
  | cons batch rest inductionHypothesis =>
      rw [refreshBatches]
      split
      · exact holds
      · apply inductionHypothesis
        · apply foldl_refreshFile_induction step batch { run with batches := run.batches + 1 } holds
          exact fun path member => wanted path (by simp [member])
        · exact fun path member => wanted path (by simp [List.mem_flatten.mp member])

theorem rounds_induction
    (stale : ∀ model path, P model → path ∈ model.catalog.listStale → Q path)
    (fuel : Nat) (run : Run) (holds : P run.model) :
    P (run.rounds conditions fuel).model := by
  induction fuel generalizing run with
  | zero => exact holds
  | succ more inductionHypothesis =>
      have once : P (run.round conditions).model := by
        apply refreshBatches_induction step _ run holds
        intro path member
        rw [flatten_batchesOf] at member
        exact stale run.model path holds (List.mem_filter.mp member).1
      rw [rounds_succ]
      split
      · exact holds
      · split
        · exact once
        · exact inductionHypothesis _ once

end Induction

end Run

/-- What holds before a run and is kept by every refresh of a stale file holds after the run, cut
short or not. -/
theorem reindex_induction {P : Model → Prop} {Q : String → Prop} {conditions : Conditions}
    (stale : ∀ model path, P model → path ∈ model.catalog.listStale → Q path)
    (step : ∀ model path, P model → Q path →
      P (model.refresh conditions.tree path conditions.now).2)
    {model : Model} (holds : P model) : P (model.reindex conditions).2 :=
  Run.rounds_induction step stale _ { model := model } holds

theorem workspace_reindex (model : Model) (conditions : Conditions) :
    (model.reindex conditions).2.workspace = model.workspace :=
  reindex_induction (P := fun reached => reached.workspace = model.workspace) (Q := fun _ => True)
    (fun _ _ _ _ => trivial)
    (fun reached path same _ =>
      (workspace_refresh reached conditions.tree path conditions.now).trans same) rfl

theorem config_reindex (model : Model) (conditions : Conditions) :
    (model.reindex conditions).2.config = model.config :=
  reindex_induction (P := fun reached => reached.config = model.config) (Q := fun _ => True)
    (fun _ _ _ _ => trivial)
    (fun reached path same _ =>
      (config_refresh reached conditions.tree path conditions.now).trans same) rfl

theorem enabled_reindex (model : Model) (conditions : Conditions) :
    (model.reindex conditions).2.catalog.enabled = model.catalog.enabled :=
  reindex_induction (P := fun reached => reached.catalog.enabled = model.catalog.enabled)
    (Q := fun _ => True) (fun _ _ _ _ => trivial)
    (fun reached path same _ =>
      (enabled_refresh reached conditions.tree path conditions.now).trans same) rfl

end Model

end CodeIndex
