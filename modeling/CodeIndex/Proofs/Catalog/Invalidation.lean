import CodeIndex.Proofs.Catalog.Importers

/-!
Contract: which files become stale with a file that is indexed again or goes.

Owns:
- `Record.Offers`: a file offers a name of a kind to others, and `Record.surface_eq_iff`: what
  others see of a file is what it offers;
- `Catalog.ImportedBy`: another file has a record that leads to a file;
- `Catalog.Invalidates`: one path gets a record or loses it, and all that becomes stale with it;
- `Catalog.importers_invalidated`: this is what happens, whatever was done to a catalog before.

The importers are looked up after the record has been entered, so the file itself is among them if
it imports itself. It is left out, and nothing else about them depends on its own record.
-/

set_option autoImplicit false

namespace CodeIndex

namespace Record

/-! ## What a file offers -/

/-- A file exports a name as something of a kind. -/
def Offers (record : Record) (name : String) (kind : ExportKind) : Prop :=
  ∃ entry ∈ record.exports, entry.name = name ∧ entry.kind = kind

theorem mem_surface (record : Record) (name : String) (kind : ExportKind) :
    (name, kind) ∈ record.surface ↔ record.Offers name kind := by
  simp only [surface, Std.ExtTreeSet.mem_ofList, List.contains_iff_mem, List.mem_map,
    Prod.mk.injEq, Offers]

/-- Others see the same of two records if these offer the same names as the same kinds. -/
theorem surface_eq_iff (left right : Record) :
    left.surface = right.surface ↔
      ∀ name kind, left.Offers name kind ↔ right.Offers name kind := by
  constructor
  · intro same name kind
    rw [← mem_surface, ← mem_surface, same]
  · intro same
    apply Std.ExtTreeSet.ext_mem
    rintro ⟨name, kind⟩
    rw [mem_surface, mem_surface, same]

theorem exposes_some_iff (old : Option Record) (new : Record) :
    Exposes old (some new) ↔ ∃ record, old = some record ∧
      ¬ ∀ name kind, record.Offers name kind ↔ new.Offers name kind := by
  cases old with
  | none => simp [Exposes]
  | some record => simp only [Exposes, surface_eq_iff, Option.some.injEq, exists_eq_left']

theorem exposes_none_iff (old : Option Record) :
    Exposes old none ↔ ∃ record, old = some record ∧ ¬ record.exports = [] := by
  cases old with
  | none => simp [Exposes]
  | some record => simp [Exposes]

end Record

namespace Catalog

/-! ## One path -/

/-- Another file has a record, and an import or a passed-on export in it leads to a file. -/
def ImportedBy (catalog : Catalog) (path other : String) : Prop :=
  ¬ other = path ∧
    ∃ record, catalog.records[other]? = some record ∧ record.LeadsTo other path

/-- One path gets a record and is clean from the time of it on, or loses record and time. If a
condition holds, the files that import the path become stale, and they are given in order. Nothing
else changes. -/
structure Invalidates (path : String) (record : Option Record) (condition : Prop)
    (before : Catalog) (dependents : List String) (after : Catalog) : Prop where
  self : after.records[path]? = record
  others : ∀ other, ¬ other = path → after.records[other]? = before.records[other]?
  selfClean : after.staleness.lastClean[path]? = record.map (·.lastIndexed)
  othersClean : ∀ other, ¬ other = path →
    after.staleness.lastClean[other]? = before.staleness.lastClean[other]?
  dirty : ∀ other, other ∈ after.staleness.dirty ↔
    (¬ other = path ∧ other ∈ before.staleness.dirty) ∨
      (condition ∧ before.ImportedBy path other)
  ordered : dependents.Pairwise (· < ·)
  dependents : ∀ other, other ∈ dependents ↔ condition ∧ before.ImportedBy path other

namespace Invalidates

variable {path : String} {record : Option Record} {condition : Prop} {before after : Catalog}

/-- Whether a file imports the path does not depend on the record of the path. -/
theorem importedBy_iff {dependents : List String}
    (sets : Invalidates path record condition before dependents after) (other : String) :
    after.ImportedBy path other ↔ before.ImportedBy path other := by
  unfold ImportedBy
  by_cases same : other = path
  · simp [same]
  · rw [sets.others other same]

/-- Without the condition nothing is marked. -/
theorem of_not (quiet : Invalidates path record False before [] after) (fails : ¬ condition) :
    Invalidates path record condition before [] after where
  self := quiet.self
  others := quiet.others
  selfClean := quiet.selfClean
  othersClean := quiet.othersClean
  dirty := by simpa [fails] using quiet.dirty
  ordered := .nil
  dependents := by simp [fails]

/-- With the condition the importers are marked. -/
theorem of_marked (quiet : Invalidates path record False before [] after) (exact : after.Exact)
    (holds : condition) :
    Invalidates path record condition before (after.markImporters path).1
      (after.markImporters path).2 := by
  have importers : ∀ other, other ∈ after.importersOf path ↔ before.ImportedBy path other := by
    intro other
    rw [exact.mem_importersOf path other, ← quiet.importedBy_iff other, ImportedBy]
  have lastClean := Staleness.lastClean_foldl_markDirty after.staleness (after.importersOf path)
  rw [markImporters_eq, fst_markImporters]
  constructor
  case self => exact quiet.self
  case others => exact quiet.others
  case selfClean =>
    rw [lastClean]
    exact quiet.selfClean
  case othersClean =>
    rw [lastClean]
    exact quiet.othersClean
  case dirty =>
    intro other
    rw [Staleness.mem_dirty_foldl_markDirty, importers, quiet.dirty other]
    simp only [holds, true_and, false_and, or_false]
    exact or_comm
  case ordered => exact pairwise_importersOf after path
  case dependents => simpa only [holds, true_and] using importers

end Invalidates

/-! ## Records put in and taken out -/

theorem invalidates_replaced (catalog : Catalog) (record : Record) :
    Invalidates record.path (some record) False catalog [] (catalog.replaced record) where
  self := by simp [replaced]
  others := by
    intro other different
    simp [replaced, Std.ExtTreeMap.getElem?_insert, Ne.symm different]
  selfClean := by simp [replaced, Staleness.markClean]
  othersClean := by
    intro other different
    simp [replaced, Staleness.markClean, Std.ExtTreeMap.getElem?_insert, Ne.symm different]
  dirty := by
    intro other
    simp only [replaced, Staleness.mem_dirty_markClean, false_and, or_false, eq_comm]
  ordered := .nil
  dependents := by simp

theorem invalidates_dropped (catalog : Catalog) (path : String) :
    Invalidates path none False catalog [] (catalog.dropped path) where
  self := by simp [dropped]
  others := by
    intro other different
    simp [dropped, Std.ExtTreeMap.getElem?_erase, Ne.symm different]
  selfClean := by simp [dropped, Staleness.remove]
  othersClean := by
    intro other different
    simp [dropped, Staleness.remove, Std.ExtTreeMap.getElem?_erase, Ne.symm different]
  dirty := by
    intro other
    simp only [dropped, Staleness.mem_dirty_remove, false_and, or_false, eq_comm]
  ordered := .nil
  dependents := by simp

section Exact

variable {catalog : Catalog} (exact : catalog.Exact)

include exact

theorem Exact.invalidates_replace (record : Record) :
    Invalidates record.path (some record)
      (∃ old, catalog.records[record.path]? = some old ∧
        ¬ ∀ name kind, old.Offers name kind ↔ record.Offers name kind)
      catalog (catalog.replace record).1 (catalog.replace record).2 := by
  rw [← Record.exposes_some_iff]
  have quiet := catalog.invalidates_replaced record
  by_cases exposes : Record.Exposes catalog.records[record.path]? (some record)
  · rw [replace_of_exposes exposes]
    exact quiet.of_marked (exact.replaced record) exposes
  · rw [replace_of_hides exposes]
    exact quiet.of_not exposes

theorem Exact.invalidates_removeFile (path : String) :
    Invalidates path none (∃ old, catalog.records[path]? = some old ∧ ¬ old.exports = [])
      catalog (catalog.removeFile path).1 (catalog.removeFile path).2 := by
  rw [← Record.exposes_none_iff]
  have quiet := catalog.invalidates_dropped path
  by_cases exposes : Record.Exposes catalog.records[path]? none
  · rw [removeFile_of_exposes exposes]
    exact quiet.of_marked (exact.dropped path) exposes
  · rw [removeFile_of_hides exposes]
    exact quiet.of_not exposes

end Exact

/-! ## Look-ups -/

section Lookups

variable {catalog after : Catalog} {workspace : Workspace} {tree : FileTree} {path : String}
  {now : Timestamp} {dependents : List String}

theorem replace_of_reindexed {record : Record}
    (entry : catalog.getEntry workspace tree path now = (.reindexed record dependents, after)) :
    record.path = path ∧ catalog.replace record = (dependents, after) := by
  have spec := catalog.getEntry_spec workspace tree path now
  rw [entry] at spec
  cases spec with
  | reindexed bytes read differs => exact ⟨Record.path_ofBytes path bytes now, rfl⟩

theorem removeFile_of_removed
    (entry : catalog.getEntry workspace tree path now = (.removed dependents, after)) :
    catalog.removeFile path = (dependents, after) := by
  have spec := catalog.getEntry_spec workspace tree path now
  rw [entry] at spec
  cases spec with
  | removed missing => rfl

end Lookups

/-- Whatever was done to a catalog: if a file is indexed again and no longer offers the same names
as the same kinds as the record before, then just the other files with a record that leads to it
become stale, beside those that are stale already, and these are the files that are given, in order.
The file itself is not stale. Otherwise no file becomes stale and none is given. The same goes for a
file that is forgotten, or turns out to be gone, if its record had exports. Other records and other
times stay as they are. -/
theorem importers_invalidated (records : Std.ExtTreeMap String Record) (staleness : Staleness)
    (actions : List Action) (enabled : Bool) :
    let catalog := reached records staleness actions enabled
    (∀ (workspace : Workspace) (tree : FileTree) (path : String) (now : Timestamp)
        (record : Record) (dependents : List String) (after : Catalog),
      catalog.getEntry workspace tree path now = (.reindexed record dependents, after) →
      Invalidates path (some record)
        (∃ old, catalog.records[path]? = some old ∧
          ¬ ∀ name kind, old.Offers name kind ↔ record.Offers name kind)
        catalog dependents after) ∧
    (∀ (workspace : Workspace) (tree : FileTree) (path : String) (now : Timestamp)
        (dependents : List String) (after : Catalog),
      catalog.getEntry workspace tree path now = (.removed dependents, after) →
      Invalidates path none (∃ old, catalog.records[path]? = some old ∧ ¬ old.exports = [])
        catalog dependents after) ∧
    ∀ path, Invalidates path none (∃ old, catalog.records[path]? = some old ∧ ¬ old.exports = [])
      catalog (catalog.removeFile path).1 (catalog.removeFile path).2 := by
  intro catalog
  have exact : catalog.Exact := Exact.reached records staleness actions enabled
  refine ⟨?_, ?_, exact.invalidates_removeFile⟩
  · intro workspace tree path now record dependents after entry
    obtain ⟨rfl, replaced⟩ := replace_of_reindexed entry
    have invalidates := exact.invalidates_replace record
    rw [replaced] at invalidates
    exact invalidates
  · intro workspace tree path now dependents after entry
    have invalidates := exact.invalidates_removeFile path
    rw [removeFile_of_removed entry] at invalidates
    exact invalidates

/-! ## A renamed export -/

/-- A file that stands for its directory and imports itself. -/
def renamedLibrary : Record :=
  { path := "lib/index.ts"
    fingerprint := "0"
    lastIndexed := 1
    imports := [{ source := "./index", names := ["*"], line := 1 }]
    exports := [{ name := "f", kind := .function, line := 2 }] }

/-- A file that imports the directory. -/
def renamedUser : Record :=
  { path := "main.ts"
    fingerprint := "1"
    lastIndexed := 1
    imports := [{ source := "./lib", names := ["f"], line := 1 }] }

def renamedRecords : Std.ExtTreeMap String Record :=
  .ofList [("lib/index.ts", renamedLibrary), ("main.ts", renamedUser)]

def renamedTree : FileTree :=
  (FileTree.empty.write? "/p/lib/index.ts"
    { bytes := "import * as self from \"./index\";\nexport const g = 1;\n".toUTF8
      modified := 2 } 0).get (by decide +kernel)

def renamedWorkspace : Workspace :=
  { root := "/p", includes := [], excludes := [], maxFileSize := 100 }

theorem exists_reindexed {outcome : Outcome} (replaced : outcome.isReplaced = true) :
    ∃ record, outcome = .reindexed record outcome.dependents := by
  cases outcome with
  | reindexed record dependents => exact ⟨record, rfl⟩
  | _ => exact absurd replaced (by simp [Outcome.isReplaced])

/-- The export of the first file has got another name. The second file becomes stale, the first one
does not. -/
theorem renamed_export_invalidates :
    ∃ record after,
      (reached renamedRecords {} []).getEntry renamedWorkspace renamedTree "lib/index.ts" 3 =
        (.reindexed record ["main.ts"], after) ∧
      Invalidates "lib/index.ts" (some record)
        (∃ old, (reached renamedRecords {} []).records["lib/index.ts"]? = some old ∧
          ¬ ∀ name kind, old.Offers name kind ↔ record.Offers name kind)
        (reached renamedRecords {} []) ["main.ts"] after ∧
      after.staleness.listStale = ["main.ts"] := by
  have computed :
      ((reached renamedRecords {} []).getEntry renamedWorkspace renamedTree
          "lib/index.ts" 3).1.isReplaced = true ∧
      ((reached renamedRecords {} []).getEntry renamedWorkspace renamedTree
          "lib/index.ts" 3).1.dependents = ["main.ts"] ∧
      ((reached renamedRecords {} []).getEntry renamedWorkspace renamedTree
          "lib/index.ts" 3).2.staleness.listStale = ["main.ts"] := by
    decide +kernel
  have invalidates := (importers_invalidated renamedRecords {} [] true).1 renamedWorkspace
    renamedTree "lib/index.ts" 3
  generalize (reached renamedRecords {} []).getEntry renamedWorkspace renamedTree
    "lib/index.ts" 3 = entry at computed invalidates ⊢
  obtain ⟨outcome, after⟩ := entry
  obtain ⟨replaced, dependents, stale⟩ := computed
  obtain ⟨record, reindexed⟩ := exists_reindexed replaced
  rw [dependents] at reindexed
  subst reindexed
  exact ⟨record, after, rfl, invalidates record ["main.ts"] after rfl, stale⟩

end Catalog

end CodeIndex
