import CodeIndex.Proofs.Catalog.Entry

/-!
Contract: a look-up of a record touches one path only, and doing it again touches nothing.

Owns:
- `Catalog.Local`: what a change to one path leaves as it was;
- `Catalog.LookedUp.staysLocal`: every look-up is such a change;
- `Catalog.lookups_are_local`: what follows for each outcome, and for the next look-up.

Nothing is assumed of the catalog: records may be without times and times without records. Only the
importers are taken out under the path that a record names, so they are left alone by other paths if
the record is kept under its own path.
-/

set_option autoImplicit false

namespace CodeIndex.Catalog

/-! ## Changes to one path -/

/-- Two catalogs differ in what they know of one path, and in some files that become stale. -/
structure Local (path : String) (dependents : List String) (before after : Catalog) : Prop where
  records : ∀ other, ¬ path = other → after.records[other]? = before.records[other]?
  lastClean : ∀ other, ¬ path = other →
    after.staleness.lastClean[other]? = before.staleness.lastClean[other]?
  dirty : ∀ other, ¬ path = other →
    (other ∈ after.staleness.dirty ↔ other ∈ before.staleness.dirty ∨ other ∈ dependents)
  importers : (∀ old, before.records[path]? = some old → old.path = path) →
    ∀ other stem, ¬ path = other →
      (other ∈ after.importers.values stem ↔ other ∈ before.importers.values stem)

namespace Local

variable (catalog : Catalog) (path : String)

theorem refl : Local path [] catalog catalog := by
  constructor <;> simp

/-- Importers that become stale are named as such. -/
theorem markImporters {path : String} {before after : Catalog} (kept : Local path [] before after) :
    Local path (after.markImporters path).1 before (after.markImporters path).2 := by
  rw [markImporters_eq, fst_markImporters]
  refine ⟨kept.records, ?_, ?_, kept.importers⟩
  · intro other different
    rw [← kept.lastClean other different, Staleness.lastClean_foldl_markDirty]
  · intro other different
    rw [Staleness.mem_dirty_foldl_markDirty, kept.dirty other different]
    simp [or_comm]

theorem refreshRecord (record : Record) (now : Timestamp) :
    Local path [] catalog (catalog.refreshRecord path record now).2 where
  records := by
    intro other different
    simp [Catalog.refreshRecord, Std.ExtTreeMap.getElem?_insert, different]
  lastClean := by
    intro other different
    simp [Catalog.refreshRecord, Staleness.markClean, Std.ExtTreeMap.getElem?_insert, different]
  dirty := by
    intro other different
    simp [Catalog.refreshRecord, different]
  importers := fun _ _ _ _ => Iff.rfl

/-- A record leaves the importers under its own path. -/
theorem mem_importersWithout {catalog : Catalog} {path : String}
    (own : ∀ old, catalog.records[path]? = some old → old.path = path) {other : String}
    (different : ¬ path = other) (stem : String) :
    other ∈ (catalog.importersWithout path).values stem ↔
      other ∈ catalog.importers.values stem := by
  unfold importersWithout
  cases found : catalog.records[path]? with
  | none => exact Iff.rfl
  | some old => simp [unlink, Multimap.mem_values_foldl_drop, own old found, different]

theorem replaced (record : Record) :
    Local record.path [] catalog (catalog.replaced record) where
  records := by
    intro other different
    simp [Catalog.replaced, Std.ExtTreeMap.getElem?_insert, different]
  lastClean := by
    intro other different
    simp [Catalog.replaced, Staleness.markClean, Std.ExtTreeMap.getElem?_insert, different]
  dirty := by
    intro other different
    simp [Catalog.replaced, different]
  importers := by
    intro own other stem different
    rw [Catalog.replaced, Multimap.mem_values_foldl_add, mem_importersWithout own different]
    simp [different]

theorem dropped : Local path [] catalog (catalog.dropped path) where
  records := by
    intro other different
    simp [Catalog.dropped, Std.ExtTreeMap.getElem?_erase, different]
  lastClean := by
    intro other different
    simp [Catalog.dropped, Staleness.remove, Std.ExtTreeMap.getElem?_erase, different]
  dirty := by
    intro other different
    simp [Catalog.dropped, different]
  importers := fun own _ stem different => mem_importersWithout own different stem

theorem replace (record : Record) :
    Local record.path (catalog.replace record).1 catalog (catalog.replace record).2 := by
  by_cases exposes : Record.Exposes catalog.records[record.path]? (some record)
  · rw [replace_of_exposes exposes]
    exact (replaced catalog record).markImporters
  · rw [replace_of_hides exposes]
    exact replaced catalog record

theorem removeFile :
    Local path (catalog.removeFile path).1 catalog (catalog.removeFile path).2 := by
  by_cases exposes : Record.Exposes catalog.records[path]? none
  · rw [removeFile_of_exposes exposes]
    exact (dropped catalog path).markImporters
  · rw [removeFile_of_hides exposes]
    exact dropped catalog path

end Local

/-! ## What a look-up leaves behind -/

namespace LookedUp

variable {workspace : Workspace} {tree : FileTree} {path : String} {now : Timestamp}
  {before after : Catalog} {outcome : Outcome}

theorem staysLocal (done : LookedUp workspace tree path now before outcome after) :
    Local path outcome.dependents before after := by
  cases done with
  | disabled => exact Local.refl before path
  | cached => exact Local.refl before path
  | absent => exact Local.refl before path
  | refreshed _ old => exact Local.refreshRecord before path old now
  | reindexed bytes =>
      have changed := Local.replace before (Record.ofBytes path bytes now)
      rwa [Record.path_ofBytes] at changed
  | removed => exact Local.removeFile before path

theorem unreadable (done : LookedUp workspace tree path now before .absent after) :
    before.enabled = false ∨
      (before.isStale path = true ∨ before.records[path]? = none) ∧
        workspace.Unreadable tree path := by
  cases done with
  | disabled off => exact .inl off
  | absent pending unreadable => exact .inr ⟨pending, unreadable⟩

theorem unchanged (done : LookedUp workspace tree path now before outcome after)
    (idle : outcome = .absent ∨ ∃ record, outcome = .cached record) : after = before := by
  cases done with
  | disabled => rfl
  | cached => rfl
  | absent => rfl
  | refreshed => exact absurd idle (by simp)
  | reindexed => exact absurd idle (by simp)
  | removed => exact absurd idle (by simp)

theorem refreshes {record : Record}
    (done : LookedUp workspace tree path now before (.refreshed record) after) :
    ∃ old, before.records[path]? = some old ∧ record = { old with lastIndexed := now } ∧
      after = { before with
                records := before.records.insert path record
                staleness := { dirty := before.staleness.dirty.erase path
                               lastClean := before.staleness.lastClean.insert path now } } := by
  cases done with
  | refreshed _ old _ found => exact ⟨old, found, rfl, rfl⟩

end LookedUp

/-- A look-up changes what is known of its path, and marks the files that it names as dependents. It
changes nothing if the record is clean, or if the file has to be read and cannot be, or if no file
can be parsed; it changes the time of the record and its marks if the bytes have not changed. A
record that was handed out is handed out again, whatever became of the file since, and nothing
changes then. -/
theorem lookups_are_local (catalog : Catalog) (workspace : Workspace) (tree : FileTree)
    (path : String) (now : Timestamp) :
    let outcome := (catalog.getEntry workspace tree path now).1
    let after := (catalog.getEntry workspace tree path now).2
    Local path outcome.dependents catalog after ∧
    (outcome = .absent ↔ catalog.enabled = false ∨
      (catalog.isStale path = true ∨ catalog.records[path]? = none) ∧
        workspace.Unreadable tree path) ∧
    (outcome = .absent ∨ (∃ record, outcome = .cached record) → after = catalog) ∧
    (∀ record, outcome = .refreshed record →
      ∃ old, catalog.records[path]? = some old ∧ record = { old with lastIndexed := now } ∧
        after = { catalog with
                  records := catalog.records.insert path record
                  staleness := { dirty := catalog.staleness.dirty.erase path
                                 lastClean := catalog.staleness.lastClean.insert path now } }) ∧
    ∀ record, outcome.record? = some record →
      ∀ (laterWorkspace : Workspace) (laterTree : FileTree) (later : Timestamp),
        after.getEntry laterWorkspace laterTree path later = (.cached record, after) := by
  intro outcome after
  have done : LookedUp workspace tree path now catalog outcome after :=
    catalog.getEntry_spec workspace tree path now
  refine ⟨done.staysLocal, ⟨fun absent => (absent ▸ done).unreadable, ?_⟩, done.unchanged, ?_, ?_⟩
  · intro idle
    rcases idle with off | ⟨pending, unreadable⟩
    · simp only [outcome, catalog.getEntry_of_disabled workspace tree path now off]
    · simp only [outcome, catalog.getEntry_of_unreadable workspace tree path now pending unreadable]
  · exact fun record refreshed => (refreshed ▸ done).refreshes
  · intro record given laterWorkspace laterTree later
    obtain ⟨found, clean⟩ := done.current given
    have on : after.enabled = true :=
      done.enabled_eq.trans (catalog.enabled_of_carried workspace tree path now given)
    exact after.getEntry_of_clean laterWorkspace laterTree path later on clean found

end CodeIndex.Catalog
