import CodeIndex.Catalog.Basic
import CodeIndex.Record.OfSource
import CodeIndex.Workspace

/-!
Contract: one record brought up to date.

Owns:
- `Catalog.Outcome`: what had to be done;
- `Catalog.absorb`: a record after its file has been read;
- `Catalog.getEntry`: a record, brought up to date if it is stale.
-/

set_option autoImplicit false

namespace CodeIndex.Catalog

/-- What had to be done to bring a record up to date. -/
inductive Outcome where
  /-- Nothing: the record was clean. -/
  | cached (record : Record)
  /-- The bytes had not changed. -/
  | refreshed (record : Record)
  /-- The record was made anew, and other files became stale. -/
  | reindexed (record : Record) (dependents : List String)
  /-- The file is gone, and other files became stale. -/
  | removed (dependents : List String)
  /-- There is nothing to make a record of, or nothing to make it with. -/
  | absent

namespace Outcome

def record? : Outcome → Option Record
  | .cached record => some record
  | .refreshed record => some record
  | .reindexed record _ => some record
  | .removed _ => none
  | .absent => none

/-- Whether the record is another one than before. -/
def isReplaced : Outcome → Bool
  | .reindexed _ _ => true
  | _ => false

def dependents : Outcome → List String
  | .reindexed _ dependents => dependents
  | .removed dependents => dependents
  | _ => []

end Outcome

/-- Sets the time of a record whose file has not changed. -/
def refreshRecord (catalog : Catalog) (path : String) (record : Record) (now : Timestamp) :
    Outcome × Catalog :=
  let refreshed := { record with lastIndexed := now }
  (.refreshed refreshed,
    { catalog with
      records := catalog.records.insert path refreshed
      staleness := catalog.staleness.markClean path now })

/-- Makes the record of a file anew. -/
def reindexRecord (catalog : Catalog) (path : String) (bytes : ByteArray) (now : Timestamp) :
    Outcome × Catalog :=
  let record := Record.ofBytes path bytes now
  let (dependents, replaced) := catalog.replace record
  (.reindexed record dependents, replaced)

/-- Takes in the bytes of a file. Equal fingerprints mean equal bytes. -/
def absorbBytes (catalog : Catalog) (path : String) (bytes : ByteArray) (now : Timestamp) :
    Outcome × Catalog :=
  match catalog.records[path]? with
  | some old =>
      if old.fingerprint = fingerprint bytes then
        catalog.refreshRecord path old now
      else
        catalog.reindexRecord path bytes now
  | none => catalog.reindexRecord path bytes now

/-- Takes in what came of reading a file: a file that is gone is forgotten, one that cannot be read
stays stale. -/
def absorb (catalog : Catalog) (path : String)
    (reading : Except Workspace.ReadError ByteArray) (now : Timestamp) : Outcome × Catalog :=
  match reading with
  | .ok bytes => catalog.absorbBytes path bytes now
  | .error .missing =>
      let (dependents, removed) := catalog.removeFile path
      (.removed dependents, removed)
  | .error _ => (.absent, catalog)

/-- The record of a file, brought up to date if it is stale. A catalog that is not enabled gives
nothing. -/
def getEntry (catalog : Catalog) (workspace : Workspace) (tree : FileTree) (path : String)
    (now : Timestamp) : Outcome × Catalog :=
  if catalog.enabled then
    match catalog.isStale path, catalog.records[path]? with
    | false, some record => (.cached record, catalog)
    | _, _ =>
        if (Language.ofPath path).isIndexable then
          catalog.absorb path (workspace.read tree path) now
        else
          (.absent, catalog)
  else
    (.absent, catalog)

end CodeIndex.Catalog
