import CodeIndex.Proofs.Model.Drain
import CodeIndex.Proofs.Model.Reached
import CodeIndex.Proofs.Model.Views

/-!
Contract: the order in which stale files are taken up does not matter.

Owns:
- `Model.Reaches`: the paths that a run can get to, told from where it starts;
- `Model.Partway`: what holds of every model on the way, whatever was taken up so far;
- `Model.Partway.refresh`, `Model.Partway.reindex`: each step and each run keeps it;
- `Model.Partway.agree`: two models that are done have the same records and the same stale files.

Who imports a file can change on the way. A file that was taken up before its import changed is not
marked any more, but it has its new record already; one that was not still has the imports it
started with. So the importers at the start tell enough.
-/

set_option autoImplicit false

namespace CodeIndex

/-! ## Times do not matter -/

namespace Record

theorem exposes_undated (old new : Option Record) :
    Exposes (old.map undated) (new.map undated) ↔ Exposes old new := by
  cases old <;> cases new <;> exact Iff.rfl

theorem not_exposes_self (record : Option Record) : ¬ Exposes record record := by
  cases record with
  | none => exact id
  | some kept => exact fun exposes => exposes rfl

end Record

namespace Workspace

variable (workspace : Workspace) (tree : FileTree) (path : String)

theorem undated_renewal (now : Timestamp) (old : Option Record) :
    (workspace.renewal tree path now old).map Record.undated =
      workspace.renewal tree path 0 (old.map Record.undated) := by
  cases read : workspace.read tree path with
  | error reason => rw [renewal_of_error read, renewal_of_error read, Option.map_none]
  | ok bytes =>
      have fresh := Record.undated_ofBytes path bytes now
      cases old with
      | none =>
          rw [renewal_of_differs read (by simp), Option.map_none,
            renewal_of_differs read (by simp), Option.map_some, fresh]
      | some kept =>
          by_cases same : kept.fingerprint = fingerprint bytes
          · have sameUndated : kept.undated.fingerprint = fingerprint bytes := same
            rw [renewal_of_same read same, Option.map_some, Option.map_some,
              renewal_of_same read sameUndated]
            rfl
          · rw [renewal_of_differs read (by simpa using same), Option.map_some, Option.map_some,
              renewal_of_differs read (by simpa [Record.undated] using same), fresh]

/-- A record that was renewed stays as it is. -/
theorem renewal_renewal (old : Option Record) :
    workspace.renewal tree path 0 (workspace.renewal tree path 0 old) =
      workspace.renewal tree path 0 old := by
  cases read : workspace.read tree path with
  | error reason => rw [renewal_of_error read, renewal_of_error read]
  | ok bytes =>
      by_cases same : ∃ kept, old = some kept ∧ kept.fingerprint = fingerprint bytes
      · obtain ⟨kept, rfl, equal⟩ := same
        have equalAfter : { kept with lastIndexed := 0 }.fingerprint = fingerprint bytes := equal
        rw [renewal_of_same read equal]
        exact renewal_of_same read equalAfter 0
      · have differs : ∀ kept, old = some kept → ¬ kept.fingerprint = fingerprint bytes :=
          fun kept isKept equal => same ⟨kept, isKept, equal⟩
        rw [renewal_of_differs read differs,
          renewal_of_same read (Record.fingerprint_ofBytes path bytes 0),
          Record.ofBytes_with_lastIndexed]

end Workspace

/-- Whether a file imports another can be read off its own record. -/
theorem Catalog.Exact.mem_importersOf_congr {left right : Catalog} (leftExact : left.Exact)
    (rightExact : right.Exact) {other : String}
    (same : left.records[other]?.map Record.undated = right.records[other]?.map Record.undated)
    (path : String) : other ∈ left.importersOf path ↔ other ∈ right.importersOf path := by
  have dated : ∀ records : Std.ExtTreeMap String Record,
      (∃ record : Record, records[other]? = some record ∧ record.LeadsTo other path) ↔
        ∃ record : Record, records[other]?.map Record.undated = some record ∧
          record.LeadsTo other path := by
    intro records
    cases records[other]? with
    | none => simp
    | some record =>
        simp only [Option.map_some, Option.some.injEq, exists_eq_left']
        exact Iff.rfl
  rw [leftExact.mem_importersOf, rightExact.mem_importersOf, dated, dated, same]

namespace Model

/-! ## Where a run gets to -/

/-- The record of a path without its time. -/
def undatedAt (model : Model) (path : String) : Option Record :=
  model.catalog.records[path]?.map Record.undated

/-- Two models have the same records, apart from times, and the same stale files. -/
structure SameEntries (left right : Model) : Prop where
  records : ∀ path, left.undatedAt path = right.undatedAt path
  stale : left.catalog.listStale = right.catalog.listStale

/-- What becomes of the record of a path that is taken up. -/
def renewedAt (start : Model) (tree : FileTree) (path : String) : Option Record :=
  start.workspace.renewal tree path 0 (start.undatedAt path)

/-- The paths that a run can get to: the stale ones, and the importers of those of which others see
something else then. -/
inductive Reaches (start : Model) (tree : FileTree) : String → Prop where
  | stale {path : String} (dirty : path ∈ start.catalog.staleness.dirty) :
      Reaches start tree path
  | spread {path other : String} (reaches : Reaches start tree path)
      (readable : ¬ start.Unreadable tree path)
      (exposes : Record.Exposes (start.undatedAt path) (start.renewedAt tree path))
      (importer : other ∈ start.catalog.importersOf path) :
      Reaches start tree other

/-- The record of a path is what becomes of it. -/
def Renewed (start : Model) (tree : FileTree) (model : Model) (path : String) : Prop :=
  ¬ start.Unreadable tree path ∧ model.undatedAt path = start.renewedAt tree path

/-- What holds of every model that comes of taking up paths which a run can get to. -/
structure Partway (start : Model) (tree : FileTree) (model : Model) : Prop where
  workspace : model.workspace = start.workspace
  enabled : model.catalog.enabled = start.catalog.enabled
  exact : model.catalog.Exact
  stale : ∀ path ∈ model.catalog.staleness.dirty, start.Reaches tree path
  record : ∀ path, model.undatedAt path = start.undatedAt path ∨
    (start.Reaches tree path ∧ Renewed start tree model path)
  owed : ∀ path ∈ start.catalog.staleness.dirty,
    path ∈ model.catalog.staleness.dirty ∨ Renewed start tree model path
  spread : ∀ path other, Renewed start tree model path →
    Record.Exposes (start.undatedAt path) (start.renewedAt tree path) →
    other ∈ start.catalog.importersOf path →
    other ∈ model.catalog.staleness.dirty ∨ Renewed start tree model other

namespace Partway

variable {start model : Model} {tree : FileTree} {path other : String}

theorem refl (exact : start.catalog.Exact) (tree : FileTree) : Partway start tree start where
  workspace := rfl
  enabled := rfl
  exact := exact
  stale := fun _ dirty => .stale dirty
  record := fun _ => Or.inl rfl
  owed := fun _ dirty => Or.inl dirty
  spread := by
    intro path other renewed exposes _
    rw [← renewed.2] at exposes
    exact absurd exposes (Record.not_exposes_self _)

/-! ## One step -/

section Step

variable {after : Model} {now : Timestamp} (partway : Partway start tree model)
  (spreads : Catalog.Spreads path (model.workspace.renewal tree path now
    model.catalog.records[path]?) model.catalog after.catalog)

include spreads in
theorem undatedAt_other (different : ¬ path = other) :
    after.undatedAt other = model.undatedAt other := by
  rw [undatedAt, undatedAt, spreads.sets.others other different]

include partway in
theorem undated_renewal_eq :
    (model.workspace.renewal tree path now model.catalog.records[path]?).map Record.undated =
      start.renewedAt tree path := by
  rw [Workspace.undated_renewal, partway.workspace]
  rcases partway.record path with same | ⟨_, _, renewed⟩
  · exact congrArg _ same
  · exact (congrArg _ renewed).trans (Workspace.renewal_renewal _ _ _ _)

include partway spreads in
theorem renewed_self (readable : ¬ start.Unreadable tree path) :
    Renewed start tree after path := by
  refine ⟨readable, ?_⟩
  rw [undatedAt, spreads.sets.self, partway.undated_renewal_eq]

include partway spreads in
/-- A path that is still to be taken up, or has its new record, stays so. -/
theorem settled_after (readable : ¬ start.Unreadable tree path)
    (settled : other ∈ model.catalog.staleness.dirty ∨ Renewed start tree model other) :
    other ∈ after.catalog.staleness.dirty ∨ Renewed start tree after other := by
  by_cases same : path = other
  · subst same
    exact Or.inr (partway.renewed_self spreads readable)
  · rcases settled with dirty | renewed
    · exact Or.inl (spreads.sets.kept other same dirty)
    · exact Or.inr ⟨renewed.1, (undatedAt_other spreads same).trans renewed.2⟩

include partway in
theorem exposes_iff :
    Record.Exposes model.catalog.records[path]?
        (model.workspace.renewal tree path now model.catalog.records[path]?) ↔
      Record.Exposes (model.undatedAt path) (start.renewedAt tree path) := by
  rw [← Record.exposes_undated, partway.undated_renewal_eq]
  exact Iff.rfl

include partway in
/-- Others see something else only when a path is taken up for the first time. -/
theorem exposes_start
    (exposes : Record.Exposes (model.undatedAt path) (start.renewedAt tree path)) :
    Record.Exposes (start.undatedAt path) (start.renewedAt tree path) := by
  rcases partway.record path with same | ⟨_, _, renewed⟩
  · rw [← same]
    exact exposes
  · rw [renewed] at exposes
    exact absurd exposes (Record.not_exposes_self _)

include spreads in
/-- A file with the record it started with imports what it imported at the start. -/
theorem importer_iff (exactAfter : after.catalog.Exact) (different : ¬ path = other)
    (same : model.undatedAt other = start.undatedAt other) (startExact : start.catalog.Exact) :
    other ∈ after.catalog.importersOf path ↔ other ∈ start.catalog.importersOf path := by
  apply exactAfter.mem_importersOf_congr startExact
  exact (undatedAt_other spreads different).trans same

end Step

theorem refresh (startExact : start.catalog.Exact) (partway : Partway start tree model)
    (reaches : start.Reaches tree path) (now : Timestamp) :
    Partway start tree (model.refresh tree path now).2 := by
  have exactAfter := exact_refresh partway.exact tree path now
  have sameWorkspace := workspace_refresh model tree path now
  rcases model.refresh_eq_self_or_spreads tree path now with same | ⟨readable, spreads⟩
  · rw [same]
    exact partway
  generalize (model.refresh tree path now).2 = after at exactAfter sameWorkspace spreads ⊢
  unfold Unreadable at readable
  rw [partway.workspace, partway.enabled] at readable
  have different : ∀ importer, importer ∈ after.catalog.importersOf path → ¬ path = importer := by
    rintro importer imports rfl
    exact Catalog.not_mem_importersOf _ _ imports
  constructor
  case workspace => rw [sameWorkspace, partway.workspace]
  case enabled => rw [spreads.sets.enabled, partway.enabled]
  case exact => exact exactAfter
  case stale =>
    intro other dirty
    rcases spreads.exposed other dirty with already | ⟨exposes, importer⟩
    · exact partway.stale other already
    · rcases partway.record other with same | ⟨reached, _⟩
      · have imports := (importer_iff spreads exactAfter (different other importer) same
          startExact).mp importer
        exact .spread reaches readable (partway.exposes_start (partway.exposes_iff.mp exposes))
          imports
      · exact reached
  case record =>
    intro other
    by_cases same : path = other
    · subst same
      exact Or.inr ⟨reaches, partway.renewed_self spreads readable⟩
    · unfold Renewed
      rw [undatedAt_other spreads same]
      exact partway.record other
  case owed =>
    intro other dirty
    exact partway.settled_after spreads readable (partway.owed other dirty)
  case spread =>
    intro changed other renewed exposes importer
    by_cases before : Renewed start tree model changed
    · exact partway.settled_after spreads readable
        (partway.spread changed other before exposes importer)
    · -- The path got its new record only now, so its importers are marked in this step.
      have own : path = changed := by
        apply Classical.byContradiction
        intro foreign
        exact before ⟨renewed.1, (undatedAt_other spreads foreign).symm.trans renewed.2⟩
      subst own
      have unchanged := (partway.record path).resolve_right fun both => before both.2
      rw [← unchanged] at exposes
      rcases partway.record other with same | ⟨_, otherRenewed⟩
      · have foreign : ¬ path = other := by
          rintro rfl
          exact Catalog.not_mem_importersOf _ _ importer
        have marked := (importer_iff spreads exactAfter foreign same startExact).mpr
          importer
        exact Or.inl (spreads.spread (partway.exposes_iff.mpr exposes) other marked)
      · exact partway.settled_after spreads readable (Or.inr otherRenewed)

/-! ## Whole runs -/

theorem reindex (startExact : start.catalog.Exact) (conditions : Conditions)
    (partway : Partway start conditions.tree model) :
    Partway start conditions.tree (model.reindex conditions).2 := by
  refine reindex_induction (Q := start.Reaches conditions.tree) ?_ ?_ partway
  · intro reached path holds listed
    exact holds.stale path ((Staleness.mem_listStale _ path).mp listed)
  · intro reached path holds reaches
    exact holds.refresh startExact reaches conditions.now

/-! ## Models that are done -/

section Done

variable (partway : Partway start tree model)
  (done : ∀ path ∈ model.catalog.staleness.dirty, start.Unreadable tree path)

include partway done

/-- Every path that a run can get to has been got to. -/
theorem settled (reaches : start.Reaches tree path) :
    path ∈ model.catalog.staleness.dirty ∨ Renewed start tree model path := by
  induction reaches with
  | stale dirty => exact partway.owed _ dirty
  | spread _ readable exposes importer inductionHypothesis =>
      have renewed := inductionHypothesis.resolve_left fun dirty => readable (done _ dirty)
      exact partway.spread _ _ renewed exposes importer

theorem mem_dirty_iff :
    path ∈ model.catalog.staleness.dirty ↔
      start.Reaches tree path ∧ start.Unreadable tree path := by
  constructor
  · exact fun dirty => ⟨partway.stale path dirty, done path dirty⟩
  · rintro ⟨reaches, unreadable⟩
    exact (partway.settled done reaches).resolve_right fun renewed => renewed.1 unreadable

theorem undatedAt_of_reaches (reaches : start.Reaches tree path)
    (readable : ¬ start.Unreadable tree path) :
    model.undatedAt path = start.renewedAt tree path :=
  ((partway.settled done reaches).resolve_left fun dirty => readable (done path dirty)).2

omit done in
theorem undatedAt_of_not_reaches
    (unreached : ¬ (start.Reaches tree path ∧ ¬ start.Unreadable tree path)) :
    model.undatedAt path = start.undatedAt path :=
  (partway.record path).resolve_right fun both => unreached ⟨both.1, both.2.1⟩

end Done

/-- Two ways to the end agree. -/
theorem agree {left right : Model} (leftPartway : Partway start tree left)
    (rightPartway : Partway start tree right)
    (leftDone : ∀ path ∈ left.catalog.staleness.dirty, start.Unreadable tree path)
    (rightDone : ∀ path ∈ right.catalog.staleness.dirty, start.Unreadable tree path) :
    left.SameEntries right := by
  constructor
  case records =>
    intro path
    by_cases reached : start.Reaches tree path ∧ ¬ start.Unreadable tree path
    · rw [leftPartway.undatedAt_of_reaches leftDone reached.1 reached.2,
        rightPartway.undatedAt_of_reaches rightDone reached.1 reached.2]
    · rw [leftPartway.undatedAt_of_not_reaches reached,
        rightPartway.undatedAt_of_not_reaches reached]
  case stale =>
    have dirty : left.catalog.staleness.dirty = right.catalog.staleness.dirty := by
      apply Std.ExtTreeSet.ext_mem
      intro path
      rw [leftPartway.mem_dirty_iff leftDone, rightPartway.mem_dirty_iff rightDone]
    rw [Catalog.listStale, Catalog.listStale, Staleness.listStale, Staleness.listStale, dirty]

end Partway

end Model

end CodeIndex
