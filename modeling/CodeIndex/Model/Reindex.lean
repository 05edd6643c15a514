import CodeIndex.Model.Basic

/-!
Contract: all stale files brought up to date.

Owns:
- `Model.Report`: how many files came to what;
- `Model.reindex`: round after round over the stale files, until none is left or the run is
  cancelled.

A round takes all files that are stale when it begins, in batches. Files that become stale in a
round are left to the next one; a file that fails stays stale and is not tried again. A round that
is followed by another has replaced or removed a record that was there before the run, and does so
at most once for each: their number bounds the rounds.

One reading of the clock stands for a whole run. The clock is read anew for every file, but a run
only writes the times down and compares none of them, so that they are all that could differ.
-/

set_option autoImplicit false

namespace CodeIndex.Model

/-- What came of a run. -/
structure Report where
  indexed : Nat := 0
  /-- Files that no record can be made of. -/
  failed : Nat := 0
  /-- Files that had not changed. -/
  skipped : Nat := 0
  removed : Nat := 0
  cancelled : Bool := false
  deriving DecidableEq, Repr

namespace Report

def count (report : Report) : Status → Report
  | .indexed => { report with indexed := report.indexed + 1 }
  | .unchanged => { report with skipped := report.skipped + 1 }
  | .removed => { report with removed := report.removed + 1 }
  | .failed => { report with failed := report.failed + 1 }

end Report

/-- Where a run stands. -/
structure Run where
  model : Model
  report : Report := {}
  /-- Files that failed. -/
  failed : Std.ExtTreeSet String := ∅
  /-- How many batches have been begun. -/
  batches : Nat := 0

/-- What a run is made with: the files, the time for all of them, and whether the run is cancelled
before a batch, given by its number. -/
structure Conditions where
  tree : FileTree
  now : Timestamp
  cancelled : Nat → Bool := fun _ => false

namespace Run

/-- Brings one file up to date. -/
def refreshFile (conditions : Conditions) (run : Run) (path : String) : Run :=
  let (status, model) := run.model.refresh conditions.tree path conditions.now
  { run with
    model := model
    report := run.report.count status
    failed := if status = .failed then run.failed.insert path else run.failed }

/-- Brings the files of batches up to date, unless the run is cancelled before. -/
def refreshBatches (conditions : Conditions) (run : Run) : List (List String) → Run
  | [] => run
  | batch :: rest =>
      if conditions.cancelled run.batches then
        { run with report := { run.report with cancelled := true } }
      else
        refreshBatches conditions
          (batch.foldl (refreshFile conditions) { run with batches := run.batches + 1 }) rest

/-- The stale files that have not failed, in order. -/
def pending (run : Run) : List String :=
  run.model.catalog.listStale.filter fun path => !run.failed.contains path

end Run

/-- Cuts a list into batches of one more than a number. -/
def batchesOf (extra : Nat) : List String → List (List String)
  | [] => []
  | first :: rest => (first :: rest.take extra) :: batchesOf extra (rest.drop extra)
termination_by paths => paths.length
decreasing_by
  simp only [List.length_drop, List.length_cons]
  omega

namespace Run

/-- Round after round, at most so many. -/
def rounds (conditions : Conditions) : Nat → Run → Run
  | 0, run => run
  | more + 1, run =>
      match run.pending with
      | [] => run
      | first :: rest =>
          let size := run.model.config.index.batchSize
          let done := run.refreshBatches conditions (batchesOf (size - 1) (first :: rest))
          if done.report.cancelled then done else rounds conditions more done

end Run

/-- Brings all stale files up to date. -/
def reindex (model : Model) (conditions : Conditions) : Report × Model :=
  let run := Run.rounds conditions (model.catalog.records.size + 1) { model := model }
  (run.report, run.model)

end CodeIndex.Model
