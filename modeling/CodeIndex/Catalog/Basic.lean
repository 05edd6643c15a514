import CodeIndex.Multimap
import CodeIndex.Specifier
import CodeIndex.Staleness

/-!
Contract: the records of all files, and who depends on whom.

Owns:
- `Catalog`: records, the files that import a stem, and which files are stale;
- `Catalog.replace`, `Catalog.removeFile`: a record put in or taken out;
- `Catalog.reconcile`: what a listing of the files says about the records.

When what others can see of a file changes, the files that import it become stale. A catalog is
enabled if the grammars of the languages can be used. That is found out when it is made, and does
not change.
-/

set_option autoImplicit false

namespace CodeIndex

/-- The records of files and what has to be done to keep them up to date. -/
structure Catalog where
  records : Std.ExtTreeMap String Record := ∅
  /-- The files that import a stem. -/
  importers : Multimap := ∅
  staleness : Staleness := {}
  /-- Whether files can be parsed. If not, no record is brought up to date. -/
  enabled : Bool := true

/-- The stems that a record's file imports. -/
def Record.stems (record : Record) : List String :=
  record.specifiers.filterMap (Specifier.stem? record.path)

namespace Catalog

def empty (enabled : Bool := true) : Catalog := { enabled := enabled }

/-! ## Importers -/

/-- Enters a record among the importers of its stems. -/
def link (catalog : Catalog) (record : Record) : Catalog :=
  { catalog with
    importers :=
      record.stems.foldl (fun importers stem => importers.add stem record.path)
        catalog.importers }

/-- Takes a record out of the importers of its stems. -/
def unlink (catalog : Catalog) (record : Record) : Catalog :=
  { catalog with
    importers :=
      record.stems.foldl (fun importers stem => importers.drop stem record.path)
        catalog.importers }

/-- The other files whose imports lead to a file, in order. -/
def importersOf (catalog : Catalog) (path : String) : List String :=
  (catalog.importers.collect (Specifier.fileStems path)).toList.filter (· != path)

/-- Marks the files that import a file. Gives these files. -/
def markImporters (catalog : Catalog) (path : String) : List String × Catalog :=
  let dependents := catalog.importersOf path
  (dependents,
    { catalog with staleness := dependents.foldl Staleness.markDirty catalog.staleness })

/-! ## Records -/

/-- Enters a record of an earlier run, unless it is kept under another path than its own. -/
def restoreRecord (catalog : Catalog) (entry : String × Record) : Catalog :=
  if entry.1 = entry.2.path then
    let linked := catalog.link entry.2
    { linked with records := linked.records.insert entry.1 entry.2 }
  else
    catalog

/-- The catalog of an earlier run. A file without a record is not known to be clean. -/
def ofState (records : Std.ExtTreeMap String Record) (staleness : Staleness)
    (enabled : Bool := true) : Catalog :=
  let restored := records.toList.foldl restoreRecord { staleness := staleness, enabled := enabled }
  { restored with
    staleness := (restored.staleness.retain fun path => restored.records.contains path).2 }

/-- Puts a record in the place of an older one. Gives the files that become stale: the importers,
if there was a record and others could see something else of it. -/
def replace (catalog : Catalog) (record : Record) : List String × Catalog :=
  let old := catalog.records[record.path]?
  let unlinked :=
    match old with
    | some old => catalog.unlink old
    | none => catalog
  let linked := unlinked.link record
  let replaced :=
    { linked with
      records := linked.records.insert record.path record
      staleness := linked.staleness.markClean record.path record.lastIndexed }
  match old with
  | some old =>
      if old.surface = record.surface then ([], replaced) else replaced.markImporters record.path
  | none => ([], replaced)

/-- Takes out the record of a file, and says whether others could see anything of it. -/
def dropRecord (catalog : Catalog) (path : String) : Bool × Catalog :=
  match catalog.records[path]? with
  | some old =>
      let unlinked := catalog.unlink old
      (!old.exports.isEmpty, { unlinked with records := unlinked.records.erase path })
  | none => (false, catalog)

/-- Forgets a file. Gives the files that become stale. -/
def removeFile (catalog : Catalog) (path : String) : List String × Catalog :=
  let forgotten := { catalog with staleness := catalog.staleness.remove path }
  let (wasVisible, dropped) := forgotten.dropRecord path
  if wasVisible then dropped.markImporters path else ([], dropped)

def markDirty (catalog : Catalog) (path : String) : Catalog :=
  { catalog with staleness := catalog.staleness.markDirty path }

/-! ## Reconciliation -/

/-- The files with a record that are not listed. -/
def unlisted (catalog : Catalog) (files : List (String × Timestamp)) : List String :=
  let present := Std.ExtTreeSet.ofList (files.map (·.1))
  catalog.records.keys.filter fun path => !present.contains path

/-- Drops several records. Gives those of them that others could see. -/
def dropRecords (catalog : Catalog) : List String → List String × Catalog
  | [] => ([], catalog)
  | path :: rest =>
      let (wasVisible, dropped) := catalog.dropRecord path
      let (visible, final) := dropped.dropRecords rest
      (if wasVisible then path :: visible else visible, final)

/-- Compares with a listing of files and their times: records of files that are gone are dropped.
Gives these files. -/
def reconcile (catalog : Catalog) (files : List (String × Timestamp)) :
    List String × Catalog :=
  let (forgotten, staleness) := catalog.staleness.reconcile files
  let gone := (Std.ExtTreeSet.ofList (forgotten ++ catalog.unlisted files)).toList
  let (visible, dropped) := { catalog with staleness := staleness }.dropRecords gone
  (gone, visible.foldl (fun marked path => (marked.markImporters path).2) dropped)

/-! ## Questions -/

def isStale (catalog : Catalog) (path : String) : Bool :=
  catalog.staleness.isStale path

def listStale (catalog : Catalog) : List String :=
  catalog.staleness.listStale

def record? (catalog : Catalog) (path : String) : Option Record :=
  catalog.records[path]?

end Catalog

end CodeIndex
