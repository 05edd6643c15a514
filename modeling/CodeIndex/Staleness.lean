import CodeIndex.Record.Basic
import Std.Data.ExtTreeMap
import Std.Data.ExtTreeSet

/-!
Contract: which files have to be indexed again.

Owns:
- `Staleness`: files known to have changed, and when files were last known to be clean;
- `Staleness.reconcile`: what a listing of the files says about both;
- `Staleness.entries`, `Staleness.ofEntries`: the part that is kept between runs.
-/

set_option autoImplicit false

namespace CodeIndex

/-- What is known about changes of files. -/
structure Staleness where
  /-- Files that have to be indexed again. -/
  dirty : Std.ExtTreeSet String := ∅
  /-- When a file was last known to be clean. -/
  lastClean : Std.ExtTreeMap String Timestamp := ∅

namespace Staleness

/-- Nothing is known. -/
def empty : Staleness := {}

/-- From the entries of an earlier run; nothing is dirty before it is reconciled. -/
def ofEntries (entries : Std.ExtTreeMap String Timestamp) : Staleness :=
  { lastClean := entries }

/-- A file has to be indexed if it has changed or was never clean. -/
def isStale (staleness : Staleness) (path : String) : Bool :=
  staleness.dirty.contains path || !staleness.lastClean.contains path

def markClean (staleness : Staleness) (path : String) (now : Timestamp) : Staleness :=
  { dirty := staleness.dirty.erase path
    lastClean := staleness.lastClean.insert path now }

def markDirty (staleness : Staleness) (path : String) : Staleness :=
  { staleness with dirty := staleness.dirty.insert path }

/-- Forgets a file. -/
def remove (staleness : Staleness) (path : String) : Staleness :=
  { dirty := staleness.dirty.erase path
    lastClean := staleness.lastClean.erase path }

/-- The dirty files in order. -/
def listStale (staleness : Staleness) : List String :=
  staleness.dirty.toList

def staleCount (staleness : Staleness) : Nat :=
  staleness.dirty.size

/-- Marks a listed file dirty unless it was clean when it was last modified, or later. -/
def noteFile (staleness : Staleness) (file : String × Timestamp) : Staleness :=
  match staleness.lastClean[file.1]? with
  | some clean => if file.2 ≤ clean then staleness else staleness.markDirty file.1
  | none => staleness.markDirty file.1

/-- The files that were clean once and are not listed, in order. -/
def vanished (staleness : Staleness) (files : List (String × Timestamp)) : List String :=
  let present := Std.ExtTreeSet.ofList (files.map (·.1))
  staleness.lastClean.keys.filter fun path => !present.contains path

/-- Compares with a listing of files and their times: forgets files that are gone and marks those
that may have changed. Gives the files that are gone. -/
def reconcile (staleness : Staleness) (files : List (String × Timestamp)) :
    List String × Staleness :=
  let gone := staleness.vanished files
  (gone, files.foldl noteFile (gone.foldl remove staleness))

/-- Keeps what is known of the files that are wanted, and counts the clean ones that are not. -/
def retain (staleness : Staleness) (wanted : String → Bool) : Nat × Staleness :=
  let kept := staleness.lastClean.filter fun path _ => wanted path
  (staleness.lastClean.size - kept.size,
    { dirty := staleness.dirty.filter wanted
      lastClean := kept })

/-- What is kept between runs. A dirty file is kept with the time zero, so that it will be found
changed. -/
def entries (staleness : Staleness) : Std.ExtTreeMap String Timestamp :=
  staleness.lastClean.map fun path clean => if staleness.dirty.contains path then 0 else clean

end Staleness

end CodeIndex
