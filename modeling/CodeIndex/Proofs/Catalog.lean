import CodeIndex.Catalog.Entry
import CodeIndex.Proofs.Multimap

/-!
Contract: what one change does to a catalog.

Owns:
- `Catalog.Sets`: one path gets a record or loses it, and what else becomes stale imports it;
- `Catalog.sets_replace`, `Catalog.sets_removeFile`, `Catalog.sets_refreshRecord`;
- `Record.Exposes`, `Catalog.Spreads`: exactly when the importers become stale;
- `Catalog.Coherent`: records are kept under their paths, and importers are those of the records;
- `Catalog.note`: what is left of a report that a file is there.
-/

set_option autoImplicit false

namespace CodeIndex

/-! ## Staleness -/

namespace Staleness

variable (staleness : Staleness) (path other : String)

@[simp] theorem mem_dirty_markClean (now : Timestamp) :
    other ∈ (staleness.markClean path now).dirty ↔ ¬ path = other ∧ other ∈ staleness.dirty := by
  simp [markClean, Std.ExtTreeSet.mem_erase]

@[simp] theorem mem_lastClean_markClean (now : Timestamp) :
    other ∈ (staleness.markClean path now).lastClean ↔
      path = other ∨ other ∈ staleness.lastClean := by
  simp [markClean, Std.ExtTreeMap.mem_insert]

@[simp] theorem mem_dirty_markDirty :
    other ∈ (staleness.markDirty path).dirty ↔ path = other ∨ other ∈ staleness.dirty := by
  simp [markDirty, Std.ExtTreeSet.mem_insert]

@[simp] theorem mem_dirty_remove :
    other ∈ (staleness.remove path).dirty ↔ ¬ path = other ∧ other ∈ staleness.dirty := by
  simp [remove, Std.ExtTreeSet.mem_erase]

@[simp] theorem mem_lastClean_remove :
    other ∈ (staleness.remove path).lastClean ↔ ¬ path = other ∧ other ∈ staleness.lastClean := by
  simp [remove, Std.ExtTreeMap.mem_erase]

theorem mem_dirty_foldl_markDirty (paths : List String) :
    other ∈ (paths.foldl markDirty staleness).dirty ↔
      other ∈ paths ∨ other ∈ staleness.dirty := by
  induction paths generalizing staleness with
  | nil => simp
  | cons first rest inductionHypothesis =>
      rw [List.foldl_cons, inductionHypothesis, mem_dirty_markDirty, List.mem_cons, or_left_comm,
        or_assoc, eq_comm]

theorem lastClean_foldl_markDirty (paths : List String) :
    (paths.foldl markDirty staleness).lastClean = staleness.lastClean :=
  List.foldlRecOn (motive := fun marked : Staleness => marked.lastClean = staleness.lastClean)
    paths _ rfl fun _ kept _ _ => kept

theorem mem_listStale : path ∈ staleness.listStale ↔ path ∈ staleness.dirty :=
  Std.ExtTreeSet.mem_toList

theorem isStale_eq_false :
    staleness.isStale path = false ↔
      ¬ path ∈ staleness.dirty ∧ path ∈ staleness.lastClean := by
  rw [isStale, Bool.or_eq_false_iff, Bool.not_eq_false', ← Bool.not_eq_true,
    Std.ExtTreeSet.contains_iff_mem, Std.ExtTreeMap.contains_iff_mem]

/-- Without any clean file, all listed files become stale. -/
theorem foldl_noteFile (files : List (String × Timestamp)) (staleness : Staleness)
    (unknown : staleness.lastClean = ∅) :
    (files.foldl noteFile staleness).lastClean = ∅ ∧
      ∀ path, path ∈ (files.foldl noteFile staleness).dirty ↔
        path ∈ files.map (·.1) ∨ path ∈ staleness.dirty := by
  induction files generalizing staleness with
  | nil => exact ⟨unknown, by simp⟩
  | cons first rest inductionHypothesis =>
      have noted : staleness.noteFile first = staleness.markDirty first.1 := by
        simp [noteFile, unknown]
      obtain ⟨lastClean, dirty⟩ := inductionHypothesis (staleness.markDirty first.1) unknown
      rw [List.foldl_cons, noted]
      refine ⟨lastClean, fun path => ?_⟩
      rw [dirty, mem_dirty_markDirty, List.map_cons, List.mem_cons, or_left_comm, or_assoc,
        eq_comm]

end Staleness

/-! ## What others see -/

/-- Others see something else of a file when its record is replaced or taken out. -/
def Record.Exposes : Option Record → Option Record → Prop
  | some old, some new => ¬ old.surface = new.surface
  | some old, none => ¬ old.exports = []
  | none, _ => False

theorem Record.Exposes.isSome {old new : Option Record} (exposes : Exposes old new) :
    old.isSome := by
  cases old with
  | none => exact absurd exposes id
  | some record => rfl

namespace Catalog

/-! ## One path -/

/-- One path gets a record, or loses it. It is clean then. Other paths keep their records; if a
record was there before, the importers of the path may become stale. -/
structure Sets (path : String) (record : Option Record) (before after : Catalog) : Prop where
  enabled : after.enabled = before.enabled
  self : after.records[path]? = record
  others : ∀ other, ¬ path = other → after.records[other]? = before.records[other]?
  selfClean : path ∈ after.staleness.lastClean ↔ record.isSome
  othersClean : ∀ other, ¬ path = other →
    (other ∈ after.staleness.lastClean ↔ other ∈ before.staleness.lastClean)
  clean : ¬ path ∈ after.staleness.dirty
  kept : ∀ other, ¬ path = other → other ∈ before.staleness.dirty → other ∈ after.staleness.dirty
  marked : ∀ other, other ∈ after.staleness.dirty → other ∈ before.staleness.dirty ∨
    (before.records[path]?.isSome ∧ other ∈ after.importersOf path)

theorem not_mem_importersOf (catalog : Catalog) (path : String) :
    ¬ path ∈ catalog.importersOf path := by
  simp [importersOf]

theorem importersOf_with_staleness (catalog : Catalog) (staleness : Staleness) (path : String) :
    { catalog with staleness := staleness }.importersOf path = catalog.importersOf path := rfl

theorem markImporters_eq (catalog : Catalog) (path : String) :
    (catalog.markImporters path).2 =
      { catalog with
        staleness := (catalog.importersOf path).foldl Staleness.markDirty catalog.staleness } := rfl

theorem fst_markImporters (catalog : Catalog) (path : String) :
    (catalog.markImporters path).1 = catalog.importersOf path := by
  unfold markImporters
  rfl

/-- Marking the importers of a path that was just set. -/
theorem Sets.markImporters {path : String} {record : Option Record} {before after : Catalog}
    (sets : Sets path record before after) (known : before.records[path]?.isSome) :
    Sets path record before (after.markImporters path).2 := by
  rw [markImporters_eq]
  have dirty : ∀ other,
      other ∈ ((after.importersOf path).foldl Staleness.markDirty after.staleness).dirty ↔
        other ∈ after.importersOf path ∨ other ∈ after.staleness.dirty :=
    fun other => Staleness.mem_dirty_foldl_markDirty _ other _
  have lastClean := Staleness.lastClean_foldl_markDirty after.staleness (after.importersOf path)
  constructor
  case enabled => exact sets.enabled
  case self => exact sets.self
  case others => exact sets.others
  case selfClean =>
    simp only [lastClean]
    exact sets.selfClean
  case othersClean =>
    simp only [lastClean]
    exact sets.othersClean
  case clean =>
    simp only [dirty]
    rintro (importer | already)
    · exact not_mem_importersOf after path importer
    · exact sets.clean already
  case kept =>
    intro other different already
    simp only [dirty]
    exact Or.inr (sets.kept other different already)
  case marked =>
    intro other marked
    simp only [dirty] at marked
    rw [importersOf_with_staleness]
    rcases marked with importer | already
    · exact Or.inr ⟨known, importer⟩
    · exact sets.marked other already

/-- A record put in and marked clean, whatever happens to the importers. -/
theorem sets_insert (catalog : Catalog) (importers : Multimap) (path : String) (record : Record)
    (now : Timestamp) :
    Sets path (some record) catalog
      { catalog with
        records := catalog.records.insert path record
        importers := importers
        staleness := catalog.staleness.markClean path now } where
  enabled := rfl
  self := by simp
  others := by
    intro other different
    simp [Std.ExtTreeMap.getElem?_insert, different]
  selfClean := by simp
  othersClean := by
    intro other different
    simp [different]
  clean := by simp
  kept := by
    intro other different dirty
    simp [different, dirty]
  marked := by
    intro other dirty
    exact Or.inl ((Staleness.mem_dirty_markClean _ _ _ _).mp dirty).2

theorem sets_refreshRecord (catalog : Catalog) (path : String) (record : Record)
    (now : Timestamp) :
    Sets path (some { record with lastIndexed := now }) catalog
      (catalog.refreshRecord path record now).2 :=
  sets_insert catalog catalog.importers path { record with lastIndexed := now } now

/-- The importers after a record has been taken out, if there was one. -/
def importersWithout (catalog : Catalog) (path : String) : Multimap :=
  match catalog.records[path]? with
  | some old => (catalog.unlink old).importers
  | none => catalog.importers

/-- A record put in, before its importers are marked. -/
def replaced (catalog : Catalog) (record : Record) : Catalog :=
  { catalog with
    records := catalog.records.insert record.path record
    importers :=
      record.stems.foldl (fun importers stem => importers.add stem record.path)
        (catalog.importersWithout record.path)
    staleness := catalog.staleness.markClean record.path record.lastIndexed }

theorem replace_of_exposes {catalog : Catalog} {record : Record}
    (exposes : Record.Exposes catalog.records[record.path]? (some record)) :
    catalog.replace record = (catalog.replaced record).markImporters record.path := by
  unfold replace replaced importersWithout
  cases found : catalog.records[record.path]? with
  | none =>
      rw [found] at exposes
      exact absurd exposes id
  | some old =>
      rw [found] at exposes
      have differs : ¬ old.surface = record.surface := exposes
      simp only [differs, if_false]
      rfl

theorem replace_of_hides {catalog : Catalog} {record : Record}
    (hides : ¬ Record.Exposes catalog.records[record.path]? (some record)) :
    catalog.replace record = ([], catalog.replaced record) := by
  unfold replace replaced importersWithout
  cases found : catalog.records[record.path]? with
  | none => rfl
  | some old =>
      rw [found] at hides
      have same : old.surface = record.surface := Classical.not_not.mp hides
      simp only [same, if_true]
      rfl

theorem replace_eq (catalog : Catalog) (record : Record) :
    (catalog.replace record).2 = catalog.replaced record ∨
      (catalog.records[record.path]?.isSome ∧
        (catalog.replace record).2 =
          ((catalog.replaced record).markImporters record.path).2) := by
  by_cases exposes : Record.Exposes catalog.records[record.path]? (some record)
  · exact Or.inr ⟨exposes.isSome, congrArg Prod.snd (replace_of_exposes exposes)⟩
  · exact Or.inl (congrArg Prod.snd (replace_of_hides exposes))

theorem sets_replace (catalog : Catalog) (record : Record) :
    Sets record.path (some record) catalog (catalog.replace record).2 := by
  have inserted : Sets record.path (some record) catalog (catalog.replaced record) :=
    sets_insert catalog _ record.path record record.lastIndexed
  rcases replace_eq catalog record with unmarked | ⟨known, marked⟩
  · rw [unmarked]
    exact inserted
  · rw [marked]
    exact inserted.markImporters known

/-- A record taken out, before its importers are marked. -/
def dropped (catalog : Catalog) (path : String) : Catalog :=
  { catalog with
    records := catalog.records.erase path
    importers := catalog.importersWithout path
    staleness := catalog.staleness.remove path }

theorem erase_eq_of_unknown {records : Std.ExtTreeMap String Record} {path : String}
    (unknown : records[path]? = none) : records.erase path = records := by
  apply Std.ExtTreeMap.ext_getElem?
  intro other
  rw [Std.ExtTreeMap.getElem?_erase]
  split
  · next same => rw [← Std.LawfulEqCmp.eq_of_compare same, unknown]
  · rfl

theorem removeFile_of_exposes {catalog : Catalog} {path : String}
    (exposes : Record.Exposes catalog.records[path]? none) :
    catalog.removeFile path = (catalog.dropped path).markImporters path := by
  unfold removeFile dropRecord dropped importersWithout
  cases found : catalog.records[path]? with
  | none =>
      rw [found] at exposes
      exact absurd exposes id
  | some old =>
      rw [found] at exposes
      have visible : old.exports.isEmpty = false := by
        simpa [Record.Exposes] using exposes
      simp only [found, visible, Bool.not_false, if_true]
      rfl

theorem removeFile_of_hides {catalog : Catalog} {path : String}
    (hides : ¬ Record.Exposes catalog.records[path]? none) :
    catalog.removeFile path = ([], catalog.dropped path) := by
  unfold removeFile dropRecord dropped importersWithout
  cases found : catalog.records[path]? with
  | none => simp [found, erase_eq_of_unknown found]
  | some old =>
      rw [found] at hides
      have invisible : old.exports.isEmpty = true := by
        simpa [Record.Exposes] using hides
      simp only [found, invisible, Bool.not_true, Bool.false_eq_true, if_false]
      rfl

theorem removeFile_eq (catalog : Catalog) (path : String) :
    (catalog.removeFile path).2 = catalog.dropped path ∨
      (catalog.records[path]?.isSome ∧
        (catalog.removeFile path).2 = ((catalog.dropped path).markImporters path).2) := by
  by_cases exposes : Record.Exposes catalog.records[path]? none
  · exact Or.inr ⟨exposes.isSome, congrArg Prod.snd (removeFile_of_exposes exposes)⟩
  · exact Or.inl (congrArg Prod.snd (removeFile_of_hides exposes))

theorem sets_removeFile (catalog : Catalog) (path : String) :
    Sets path none catalog (catalog.removeFile path).2 := by
  have erased : Sets path none catalog (catalog.dropped path) :=
    { enabled := rfl
      self := by simp [dropped]
      others := by
        intro other different
        simp [dropped, Std.ExtTreeMap.getElem?_erase, different]
      selfClean := by simp [dropped]
      othersClean := by
        intro other different
        simp [dropped, different]
      clean := by simp [dropped]
      kept := by
        intro other different dirty
        simp [dropped, different, dirty]
      marked := by
        intro other dirty
        exact Or.inl ((Staleness.mem_dirty_remove _ _ _).mp dirty).2 }
  rcases removeFile_eq catalog path with unmarked | ⟨known, marked⟩
  · rw [unmarked]
    exact erased
  · rw [marked]
    exact erased.markImporters known

/-- The importers of a path that is set become stale if others see something else of it, and only
then. -/
structure Spreads (path : String) (record : Option Record) (before after : Catalog) : Prop where
  sets : Sets path record before after
  spread : Record.Exposes before.records[path]? record →
    ∀ other ∈ after.importersOf path, other ∈ after.staleness.dirty
  exposed : ∀ other, other ∈ after.staleness.dirty → other ∈ before.staleness.dirty ∨
    (Record.Exposes before.records[path]? record ∧ other ∈ after.importersOf path)

theorem Spreads.of_hides {path : String} {record : Option Record} {before after : Catalog}
    (sets : Sets path record before after)
    (hides : ¬ Record.Exposes before.records[path]? record)
    (fewer : ∀ other ∈ after.staleness.dirty, other ∈ before.staleness.dirty) :
    Spreads path record before after :=
  ⟨sets, fun exposes => absurd exposes hides, fun other dirty => Or.inl (fewer other dirty)⟩

theorem Spreads.of_exposes {path : String} {record : Option Record} {before after : Catalog}
    (sets : Sets path record before (after.markImporters path).2)
    (exposes : Record.Exposes before.records[path]? record) :
    Spreads path record before (after.markImporters path).2 := by
  refine ⟨sets, fun _ other importer => ?_, fun other dirty => ?_⟩
  · rw [markImporters_eq, importersOf_with_staleness] at importer
    rw [markImporters_eq]
    exact (Staleness.mem_dirty_foldl_markDirty _ other _).mpr (Or.inl importer)
  · exact (sets.marked other dirty).imp_right fun both => ⟨exposes, both.2⟩

theorem spreads_replace (catalog : Catalog) (record : Record) :
    Spreads record.path (some record) catalog (catalog.replace record).2 := by
  have sets := sets_replace catalog record
  by_cases exposes : Record.Exposes catalog.records[record.path]? (some record)
  · rw [replace_of_exposes exposes] at sets ⊢
    exact .of_exposes sets exposes
  · rw [replace_of_hides exposes] at sets ⊢
    refine .of_hides sets exposes fun other dirty => ?_
    exact ((Staleness.mem_dirty_markClean _ _ _ _).mp dirty).2

theorem spreads_removeFile (catalog : Catalog) (path : String) :
    Spreads path none catalog (catalog.removeFile path).2 := by
  have sets := sets_removeFile catalog path
  by_cases exposes : Record.Exposes catalog.records[path]? none
  · rw [removeFile_of_exposes exposes] at sets ⊢
    exact .of_exposes sets exposes
  · rw [removeFile_of_hides exposes] at sets ⊢
    refine .of_hides sets exposes fun other dirty => ?_
    exact ((Staleness.mem_dirty_remove _ _ _).mp dirty).2

theorem spreads_refreshRecord {catalog : Catalog} {path : String} {record : Record}
    (found : catalog.records[path]? = some record) (now : Timestamp) :
    Spreads path (some { record with lastIndexed := now }) catalog
      (catalog.refreshRecord path record now).2 := by
  refine .of_hides (sets_refreshRecord catalog path record now) ?_ fun other dirty => ?_
  · rw [found]
    exact fun exposes => exposes rfl
  · exact ((Staleness.mem_dirty_markClean _ _ _ _).mp dirty).2

/-! ## Importers -/

/-- Records are kept under their paths, and the importers of a stem are the files with a record that
imports it. -/
structure Coherent (catalog : Catalog) : Prop where
  paths : ∀ (path : String) (record : Record),
    catalog.records[path]? = some record → record.path = path
  importers : ∀ stem path, path ∈ catalog.importers.values stem ↔
    ∃ record, catalog.records[path]? = some record ∧ stem ∈ record.stems

theorem coherent_empty (enabled : Bool) : (Catalog.empty enabled).Coherent where
  paths := by simp [empty]
  importers := by simp [empty]

theorem Coherent.markImporters {catalog : Catalog} (coherent : catalog.Coherent) (path : String) :
    (catalog.markImporters path).2.Coherent := by
  rw [markImporters_eq]
  exact ⟨coherent.paths, coherent.importers⟩

/-- A file without its record imports nothing. -/
theorem Coherent.mem_importersWithout {catalog : Catalog} (coherent : catalog.Coherent)
    (path stem other : String) :
    other ∈ (catalog.importersWithout path).values stem ↔
      ¬ path = other ∧ ∃ record, catalog.records[other]? = some record ∧ stem ∈ record.stems := by
  unfold importersWithout
  cases found : catalog.records[path]? with
  | none =>
      simp only [coherent.importers]
      constructor
      · rintro ⟨record, kept, imported⟩
        refine ⟨?_, record, kept, imported⟩
        rintro rfl
        rw [found] at kept
        exact absurd kept (by simp)
      · exact fun both => both.2
  | some old =>
      simp only [unlink, Multimap.mem_values_foldl_drop, coherent.paths path old found,
        coherent.importers]
      constructor
      · rintro ⟨foreign, record, kept, imported⟩
        refine ⟨?_, record, kept, imported⟩
        rintro rfl
        rw [found, Option.some.injEq] at kept
        exact foreign ⟨kept ▸ imported, rfl⟩
      · rintro ⟨different, record, kept, imported⟩
        exact ⟨fun both => different both.2, record, kept, imported⟩

theorem Coherent.replaced {catalog : Catalog} (coherent : catalog.Coherent) (record : Record) :
    (catalog.replaced record).Coherent := by
  constructor
  case paths =>
    intro path kept found
    simp only [Catalog.replaced, Std.ExtTreeMap.getElem?_insert] at found
    split at found
    · next same => rw [← Option.some.inj found, Std.LawfulEqCmp.eq_of_compare same]
    · exact coherent.paths path kept found
  case importers =>
    intro stem path
    simp only [Catalog.replaced, Multimap.mem_values_foldl_add, coherent.mem_importersWithout]
    by_cases same : record.path = path
    · subst same
      simp
    · simp [Std.ExtTreeMap.getElem?_insert, same]

theorem Coherent.replace {catalog : Catalog} (coherent : catalog.Coherent) (record : Record) :
    (catalog.replace record).2.Coherent := by
  rcases replace_eq catalog record with unmarked | ⟨_, marked⟩
  · rw [unmarked]
    exact coherent.replaced record
  · rw [marked]
    exact (coherent.replaced record).markImporters record.path

theorem Coherent.dropped {catalog : Catalog} (coherent : catalog.Coherent) (path : String) :
    (catalog.dropped path).Coherent := by
  constructor
  case paths =>
    intro other kept found
    simp only [Catalog.dropped, Std.ExtTreeMap.getElem?_erase] at found
    split at found
    · exact absurd found (by simp)
    · exact coherent.paths other kept found
  case importers =>
    intro stem other
    simp only [Catalog.dropped, coherent.mem_importersWithout]
    by_cases same : path = other
    · subst same
      simp
    · simp [Std.ExtTreeMap.getElem?_erase, same]

theorem Coherent.removeFile {catalog : Catalog} (coherent : catalog.Coherent) (path : String) :
    (catalog.removeFile path).2.Coherent := by
  rcases removeFile_eq catalog path with unmarked | ⟨_, marked⟩
  · rw [unmarked]
    exact coherent.dropped path
  · rw [marked]
    exact (coherent.dropped path).markImporters path

theorem Coherent.refreshRecord {catalog : Catalog} (coherent : catalog.Coherent) {path : String}
    {record : Record} (found : catalog.records[path]? = some record) (now : Timestamp) :
    (catalog.refreshRecord path record now).2.Coherent := by
  constructor
  case paths =>
    intro other kept looked
    simp only [Catalog.refreshRecord, Std.ExtTreeMap.getElem?_insert] at looked
    split at looked
    · next same =>
        rw [← Option.some.inj looked, ← Std.LawfulEqCmp.eq_of_compare same]
        exact coherent.paths path record found
    · exact coherent.paths other kept looked
  case importers =>
    intro stem other
    simp only [Catalog.refreshRecord, coherent.importers]
    by_cases same : path = other
    · subst same
      simp only [Std.ExtTreeMap.getElem?_insert_self, Option.some.injEq, exists_eq_left', found]
      rfl
    · simp [Std.ExtTreeMap.getElem?_insert, same]

/-- The importers of a file have records. -/
theorem Coherent.isSome_of_mem_importersOf {catalog : Catalog} (coherent : catalog.Coherent)
    {path other : String} (importer : other ∈ catalog.importersOf path) :
    catalog.records[other]?.isSome := by
  simp only [importersOf, List.mem_filter, Std.ExtTreeSet.mem_toList, Multimap.mem_collect]
    at importer
  obtain ⟨⟨stem, _, imported⟩, _⟩ := importer
  obtain ⟨record, found, _⟩ := (coherent.importers stem other).mp imported
  rw [found]
  rfl

/-! ## Reports -/

section Reports

/-- A catalog in which a file is marked if it is to be indexed. -/
def note (catalog : Catalog) (indexable : Bool) (path : String) : Catalog :=
  if indexable then catalog.markDirty path else catalog

variable (catalog : Catalog) (indexable : Bool) (path : String)

theorem records_note : (catalog.note indexable path).records = catalog.records := by
  cases indexable <;> rfl

theorem enabled_note : (catalog.note indexable path).enabled = catalog.enabled := by
  cases indexable <;> rfl

theorem lastClean_note :
    (catalog.note indexable path).staleness.lastClean = catalog.staleness.lastClean := by
  cases indexable <;> rfl

theorem mem_dirty_note (other : String) :
    other ∈ (catalog.note indexable path).staleness.dirty ↔
      (indexable = true ∧ path = other) ∨ other ∈ catalog.staleness.dirty := by
  cases indexable with
  | true => simp [note, markDirty]
  | false => simp [note]

theorem Coherent.note {catalog : Catalog} (coherent : catalog.Coherent) :
    (catalog.note indexable path).Coherent := by
  cases indexable with
  | true => exact ⟨coherent.paths, coherent.importers⟩
  | false => exact coherent

end Reports

end Catalog

end CodeIndex
