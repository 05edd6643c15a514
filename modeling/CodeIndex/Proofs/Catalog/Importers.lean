import CodeIndex.Proofs.Catalog.Entry
import CodeIndex.Proofs.Catalog.Reconcile

/-!
Contract: who imports whom, whatever was done to a catalog.

Owns:
- `Record.LeadsTo`: an import or a passed-on export of a file leads to another file;
- `Catalog.Exact`: the importers of stems are those of the records, and no stem is kept without any;
- `Catalog.Action`: all ways to change a catalog;
- `Catalog.Exact.reached`: every catalog that can be reached is exact;
- `Catalog.Exact.mem_importersOf`: the importers of a file, read off the records.

A record is taken out of the importers of its stems with the stems it was entered with, since a
catalog keeps it as it was entered. Only its time may change in between.
-/

set_option autoImplicit false

namespace CodeIndex

/-! ## Imports of a record -/

/-- An import, or an export that is passed on, leads from the importer with this record to a
file. -/
def Record.LeadsTo (record : Record) (importer path : String) : Prop :=
  ∃ specifier, (specifier ∈ record.imports.map (·.source) ∨
      some specifier ∈ record.exports.map (·.source)) ∧
    ∃ stem ∈ Specifier.fileStems path, Specifier.stem? importer specifier = some stem

theorem Record.leadsTo_iff (record : Record) (path : String) :
    record.LeadsTo record.path path ↔
      ∃ stem ∈ Specifier.fileStems path, stem ∈ record.stems := by
  have sources : ∀ specifier, specifier ∈ record.specifiers ↔
      specifier ∈ record.imports.map (·.source) ∨
        some specifier ∈ record.exports.map (·.source) := by
    intro specifier
    simp only [specifiers, List.mem_append, List.mem_filterMap, List.mem_map]
  simp only [LeadsTo, stems, List.mem_filterMap, sources]
  constructor
  · rintro ⟨specifier, named, stem, leads, found⟩
    exact ⟨stem, leads, specifier, named, found⟩
  · rintro ⟨stem, leads, specifier, named, found⟩
    exact ⟨specifier, named, stem, leads, found⟩

namespace Catalog

/-! ## Exact catalogs -/

/-- The importers of a stem are the files with a record that imports it, and no stem is kept without
importers. -/
structure Exact (catalog : Catalog) : Prop where
  coherent : catalog.Coherent
  tidy : catalog.importers.Tidy

theorem tidy_importersWithout {catalog : Catalog} (tidy : catalog.importers.Tidy) (path : String) :
    (catalog.importersWithout path).Tidy := by
  unfold importersWithout
  split
  · exact tidy.foldl_drop _ _
  · exact tidy

namespace Exact

section Steps

variable {catalog : Catalog} (exact : catalog.Exact)

include exact

/-- What is stale does not matter. -/
theorem with_staleness (staleness : Staleness) :
    { catalog with staleness := staleness }.Exact :=
  ⟨⟨exact.coherent.paths, exact.coherent.importers⟩, exact.tidy⟩

theorem markImporters (path : String) : (catalog.markImporters path).2.Exact :=
  exact.with_staleness _

theorem replaced (record : Record) : (catalog.replaced record).Exact :=
  ⟨exact.coherent.replaced record, (tidy_importersWithout exact.tidy _).foldl_add _ _⟩

theorem replace (record : Record) : (catalog.replace record).2.Exact := by
  rcases replace_eq catalog record with unmarked | ⟨_, marked⟩
  · rw [unmarked]
    exact exact.replaced record
  · rw [marked]
    exact (exact.replaced record).markImporters record.path

theorem dropped (path : String) : (catalog.dropped path).Exact :=
  ⟨exact.coherent.dropped path, tidy_importersWithout exact.tidy path⟩

theorem removeFile (path : String) : (catalog.removeFile path).2.Exact := by
  rcases removeFile_eq catalog path with unmarked | ⟨_, marked⟩
  · rw [unmarked]
    exact exact.dropped path
  · rw [marked]
    exact (exact.dropped path).markImporters path

theorem dropRecord (path : String) : (catalog.dropRecord path).2.Exact := by
  have same : (catalog.dropRecord path).2 =
      { catalog.dropped path with staleness := catalog.staleness } := by
    unfold Catalog.dropRecord Catalog.dropped importersWithout
    cases found : catalog.records[path]? with
    | some old => rfl
    | none => rw [erase_eq_of_unknown found]
  rw [same]
  exact (exact.dropped path).with_staleness _

theorem getEntry (workspace : Workspace) (tree : FileTree) (path : String) (now : Timestamp) :
    (catalog.getEntry workspace tree path now).2.Exact := by
  have spec := catalog.getEntry_spec workspace tree path now
  generalize (catalog.getEntry workspace tree path now).1 = outcome at spec
  generalize (catalog.getEntry workspace tree path now).2 = after at spec ⊢
  cases spec with
  | disabled off => exact exact
  | cached record clean found => exact exact
  | absent pending unreadable => exact exact
  | refreshed bytes old read found same =>
      exact ⟨exact.coherent.refreshRecord found now, exact.tidy⟩
  | reindexed bytes read differs => exact exact.replace _
  | removed missing => exact exact.removeFile path

end Steps

theorem dropRecords {catalog : Catalog} (exact : catalog.Exact) (paths : List String) :
    (catalog.dropRecords paths).2.Exact := by
  induction paths generalizing catalog with
  | nil => exact exact
  | cons first rest inductionHypothesis =>
      rw [Catalog.dropRecords]
      exact inductionHypothesis (exact.dropRecord first)

theorem reconcile {catalog : Catalog} (exact : catalog.Exact)
    (files : List (String × Timestamp)) : (catalog.reconcile files).2.Exact := by
  unfold Catalog.reconcile
  dsimp only
  refine List.foldlRecOn (motive := Exact) _ _ ?_ ?_
  · exact (exact.with_staleness _).dropRecords _
  · exact fun marked kept path _ => kept.markImporters path

/-! ## Restored catalogs -/

/-- The records of an earlier run are entered under different paths, so none of them is entered
twice. -/
theorem ofState (records : Std.ExtTreeMap String Record) (staleness : Staleness)
    (enabled : Bool) : (Catalog.ofState records staleness enabled).Exact := by
  let restored := records.toList.foldl restoreRecord { staleness := staleness, enabled := enabled }
  have tidy : restored.importers.Tidy := by
    refine List.foldlRecOn (motive := fun catalog : Catalog => catalog.importers.Tidy) _ _
      Multimap.tidy_empty ?_
    intro catalog kept entry _
    unfold restoreRecord
    split
    · exact kept.foldl_add _ _
    · exact kept
  have entered : ∀ path stem, path ∈ restored.importers.values stem ↔
      ∃ record, (records[path]?.filter fun record => path = record.path) = some record ∧
        stem ∈ record.stems := by
    intro path
    refine foldl_toList_at records path restoreRecord (fun value catalog => ∀ stem,
      path ∈ catalog.importers.values stem ↔
        ∃ record, (value.filter fun record => path = record.path) = some record ∧
          stem ∈ record.stems) ?_ ?_ ?_
    · simp
    · intro value current entry _ foreign holds stem
      rw [← holds, restoreRecord]
      split
      · next own =>
          have different : ¬ entry.2.path = path := own ▸ foreign
          simp [link, Multimap.mem_values_foldl_add, different]
      · exact Iff.rfl
    · intro value current _ holds stem
      have nothing : ¬ path ∈ current.importers.values stem := by simp [holds]
      rw [restoreRecord]
      split
      · next own =>
          have isOwn : value.path = path := own.symm
          simp [link, Multimap.mem_values_foldl_add, nothing, Option.filter, isOwn]
      · next foreign => simpa [foreign, Option.filter] using nothing
  refine ⟨⟨?_, ?_⟩, tidy⟩
  · intro path record found
    rw [getElem?_records_ofState, Option.filter_eq_some_iff] at found
    exact (of_decide_eq_true found.2).symm
  · intro stem path
    rw [getElem?_records_ofState]
    exact entered path stem

theorem empty (enabled : Bool) : (Catalog.empty enabled).Exact :=
  ⟨coherent_empty enabled, Multimap.tidy_empty⟩

end Exact

/-! ## Histories -/

/-- What can be done to a catalog; workspace and files may be others each time. -/
inductive Action where
  | getEntry (workspace : Workspace) (tree : FileTree) (path : String) (now : Timestamp)
  | removeFile (path : String)
  | markDirty (path : String)
  | reconcile (files : List (String × Timestamp))

def Action.perform (catalog : Catalog) : Action → Catalog
  | .getEntry workspace tree path now => (catalog.getEntry workspace tree path now).2
  | .removeFile path => (catalog.removeFile path).2
  | .markDirty path => catalog.markDirty path
  | .reconcile files => (catalog.reconcile files).2

/-- The catalog that a history leads to, from the records and times of an earlier run. Files can be
parsed unless it is said that they cannot. -/
def reached (records : Std.ExtTreeMap String Record) (staleness : Staleness)
    (actions : List Action) (enabled : Bool := true) : Catalog :=
  actions.foldl Action.perform (.ofState records staleness enabled)

namespace Exact

theorem perform {catalog : Catalog} (exact : catalog.Exact) (action : Action) :
    (action.perform catalog).Exact := by
  cases action with
  | getEntry workspace tree path now => exact exact.getEntry workspace tree path now
  | removeFile path => exact exact.removeFile path
  | markDirty path => exact exact.with_staleness _
  | reconcile files => exact exact.reconcile files

theorem reached (records : Std.ExtTreeMap String Record) (staleness : Staleness)
    (actions : List Action) (enabled : Bool) :
    (Catalog.reached records staleness actions enabled).Exact :=
  List.foldlRecOn (motive := Exact) actions _ (ofState records staleness enabled)
    fun _ kept action _ => kept.perform action

/-! ## Importers of a file -/

theorem mem_importersOf {catalog : Catalog} (exact : catalog.Exact) (path other : String) :
    other ∈ catalog.importersOf path ↔ ¬ other = path ∧
      ∃ record, catalog.records[other]? = some record ∧ record.LeadsTo other path := by
  have leads : ∀ record, catalog.records[other]? = some record →
      (record.LeadsTo other path ↔ ∃ stem ∈ Specifier.fileStems path, stem ∈ record.stems) := by
    intro record found
    rw [← record.leadsTo_iff, exact.coherent.paths other record found]
  simp only [importersOf, List.mem_filter, Std.ExtTreeSet.mem_toList, Multimap.mem_collect,
    exact.coherent.importers, bne_iff_ne]
  constructor
  · rintro ⟨⟨stem, leading, record, found, imported⟩, different⟩
    exact ⟨different, record, found, (leads record found).mpr ⟨stem, leading, imported⟩⟩
  · rintro ⟨different, record, found, leading⟩
    obtain ⟨stem, isStem, imported⟩ := (leads record found).mp leading
    exact ⟨⟨stem, isStem, record, found, imported⟩, different⟩

end Exact

theorem pairwise_importersOf (catalog : Catalog) (path : String) :
    (catalog.importersOf path).Pairwise (· < ·) := by
  have ordered := Std.ExtTreeSet.ordered_toList
    (t := catalog.importers.collect (Specifier.fileStems path))
  exact (ordered.imp compareOfLessAndEq_eq_lt.mp).filter _

end Catalog

end CodeIndex
