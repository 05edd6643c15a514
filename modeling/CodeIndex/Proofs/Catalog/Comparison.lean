import CodeIndex.Proofs.Catalog.Invalidation

/-!
Contract: what a comparison with the files leaves of a catalog.

Owns:
- `Catalog.Compared`: what is gone, what is kept, and what is stale after a comparison;
- `Catalog.reconcile_compares`: every comparison comes to that, whatever was done to a catalog
  before.

All records of files that are gone are dropped before any importer is marked. So the importers that
are marked still have a record, and what has a record then is listed: no file that is gone can be
marked by another one.
-/

set_option autoImplicit false

namespace CodeIndex.Catalog

/-- A catalog before and after it was compared with a listing of files and their times. -/
structure Compared (before : Catalog) (files : List (String × Timestamp)) (gone : List String)
    (after : Catalog) : Prop where
  /-- Records of listed files are kept as they are, the others are dropped. -/
  records : ∀ path, after.records[path]? =
    if path ∈ files.map (·.1) then before.records[path]? else none
  ordered : gone.Pairwise (· < ·)
  /-- Gone is what has a record or was clean once, and is not listed. -/
  missing : ∀ path, path ∈ gone ↔ ¬ path ∈ files.map (·.1) ∧
    (path ∈ before.records ∨ path ∈ before.staleness.lastClean)
  /-- Times of listed files are kept, the others are dropped. -/
  lastClean : ∀ path, after.staleness.lastClean[path]? =
    if path ∈ files.map (·.1) then before.staleness.lastClean[path]? else none
  /-- The importers are those of the records that are left. -/
  importers : after.Exact
  /-- A listed file is stale if it was dirty, was never clean, is listed with a time at which it was
  not clean yet, or imports a file that is gone and had exports. -/
  stale : ∀ path ∈ files.map (·.1), (after.isStale path = true ↔
    path ∈ before.staleness.dirty ∨
    ¬ path ∈ before.staleness.lastClean ∨
    (∃ time clean, (path, time) ∈ files ∧ before.staleness.lastClean[path]? = some clean ∧
      clean < time) ∨
    ∃ vanished ∈ gone, (∃ old, before.records[vanished]? = some old ∧ ¬ old.exports = []) ∧
      before.ImportedBy vanished path)
  /-- Of the others, none becomes dirty, and those that were clean once are so no longer. -/
  unlisted : ∀ path, ¬ path ∈ files.map (·.1) → (path ∈ after.staleness.dirty ↔
    path ∈ before.staleness.dirty ∧ ¬ path ∈ before.staleness.lastClean)

section Reconcile

variable (catalog : Catalog) (files : List (String × Timestamp))

theorem pairwise_gone : (catalog.reconcile files).1.Pairwise (· < ·) := by
  have ordered := Std.ExtTreeSet.ordered_toList
    (t := Std.ExtTreeSet.ofList ((catalog.staleness.reconcile files).1 ++ catalog.unlisted files))
  exact ordered.imp compareOfLessAndEq_eq_lt.mp

/-- To drop what is gone is to keep what is listed, if all that is known and not listed is gone. -/
theorem ite_gone_eq_ite_listed {α : Type} {value : Option α} {isGone listed : Prop}
    [Decidable isGone] [Decidable listed] (unlisted : isGone → ¬ listed)
    (covered : value.isSome → ¬ listed → isGone) :
    (if isGone then none else value) = if listed then value else none := by
  by_cases isListed : listed
  · have present : ¬ isGone := fun gone => unlisted gone isListed
    rw [if_neg present, if_pos isListed]
  · rw [if_neg isListed]
    split
    · rfl
    · next present =>
        rw [← Option.not_isSome_iff_eq_none]
        exact fun known => present (covered known isListed)

theorem getElem?_lastClean_reconcile_of_listing (path : String) :
    (catalog.reconcile files).2.staleness.lastClean[path]? =
      if path ∈ files.map (·.1) then catalog.staleness.lastClean[path]? else none := by
  obtain ⟨_, reconciled, _⟩ := catalog.reconcile_eq files
  rw [reconciled, Staleness.getElem?_lastClean_reconcile]
  apply ite_gone_eq_ite_listed
  · rw [Staleness.mem_vanished]
    exact fun gone => gone.2
  · rw [← Std.ExtTreeMap.mem_iff_isSome_getElem?, Staleness.mem_vanished]
    exact And.intro

theorem getElem?_records_reconcile_of_listing (path : String) :
    (catalog.reconcile files).2.records[path]? =
      if path ∈ files.map (·.1) then catalog.records[path]? else none := by
  rw [getElem?_records_reconcile]
  apply ite_gone_eq_ite_listed
  · rw [mem_gone]
    exact fun gone => gone.2
  · rw [← mem_records_iff, mem_gone]
    exact fun known unlisted => ⟨Or.inr known, unlisted⟩

variable {catalog} (exact : catalog.Exact)

include exact

theorem exact_withoutGone : (catalog.withoutGone files).Exact :=
  (exact.with_staleness _).dropRecords _

/-- The importers that are left of a file are listed. -/
theorem mem_importersOf_withoutGone (vanished path : String) :
    path ∈ (catalog.withoutGone files).importersOf vanished ↔
      path ∈ files.map (·.1) ∧ catalog.ImportedBy vanished path := by
  rw [(exact_withoutGone files exact).mem_importersOf, ImportedBy]
  constructor
  · rintro ⟨different, record, found, leads⟩
    have listed : path ∈ files.map (·.1) := by
      apply listed_of_mem_records_withoutGone
      rw [mem_records_iff, found]
      rfl
    rw [getElem?_records_withoutGone] at found
    split at found
    · exact absurd found (by simp)
    · exact ⟨listed, different, record, found, leads⟩
  · rintro ⟨listed, different, record, found, leads⟩
    have present : ¬ path ∈ (catalog.reconcile files).1 :=
      fun gone => ((mem_gone _ _ _).mp gone).2 listed
    refine ⟨different, record, ?_, leads⟩
    rw [getElem?_records_withoutGone, if_neg present, found]

/-- What is dirty after a comparison: what was dirty and is not forgotten, what is listed with a
time at which it was not clean yet, and listed importers of files that are gone. -/
theorem mem_dirty_reconcile_iff (path : String) :
    path ∈ (catalog.reconcile files).2.staleness.dirty ↔
      (¬ path ∈ catalog.staleness.vanished files ∧ path ∈ catalog.staleness.dirty) ∨
      (∃ time, (path, time) ∈ files ∧
        ∀ clean, catalog.staleness.lastClean[path]? = some clean → clean < time) ∨
      (path ∈ files.map (·.1) ∧ ∃ vanished ∈ (catalog.reconcile files).1,
        (∃ old, catalog.records[vanished]? = some old ∧ ¬ old.exports = []) ∧
          catalog.ImportedBy vanished path) := by
  obtain ⟨_, reconciled, members⟩ := catalog.reconcile_eq files
  have noted : path ∈ (catalog.staleness.reconcile files).2.dirty ↔
      (¬ path ∈ catalog.staleness.vanished files ∧ path ∈ catalog.staleness.dirty) ∨
      ∃ time, (path, time) ∈ files ∧
        ∀ clean, catalog.staleness.lastClean[path]? = some clean → clean < time := by
    rw [Staleness.reconcile, Staleness.mem_dirty_foldl_noteFile,
      Staleness.mem_dirty_foldl_remove, Staleness.getElem?_lastClean_foldl_remove]
    refine or_congr_right (exists_congr fun time => and_congr_right fun listed => ?_)
    have present : ¬ path ∈ catalog.staleness.vanished files :=
      fun gone => ((Staleness.mem_vanished _ _ _).mp gone).2 (List.mem_map.mpr ⟨_, listed, rfl⟩)
    simp only [if_neg present, Int64.not_le]
  rw [reconciled, members path, noted, or_assoc]
  simp only [mem_importersOf_withoutGone files exact, Record.exposes_none_iff]
  refine or_congr_right (or_congr_right ?_)
  constructor
  · rintro ⟨vanished, isGone, visible, listed, imported⟩
    exact ⟨listed, vanished, isGone, visible, imported⟩
  · rintro ⟨listed, vanished, isGone, visible, imported⟩
    exact ⟨vanished, isGone, visible, listed, imported⟩

theorem isStale_reconcile {path : String} (listed : path ∈ files.map (·.1)) :
    (catalog.reconcile files).2.isStale path = true ↔
      path ∈ catalog.staleness.dirty ∨
      ¬ path ∈ catalog.staleness.lastClean ∨
      (∃ time clean, (path, time) ∈ files ∧ catalog.staleness.lastClean[path]? = some clean ∧
        clean < time) ∨
      ∃ vanished ∈ (catalog.reconcile files).1,
        (∃ old, catalog.records[vanished]? = some old ∧ ¬ old.exports = []) ∧
          catalog.ImportedBy vanished path := by
  have present : ¬ path ∈ catalog.staleness.vanished files :=
    fun gone => ((Staleness.mem_vanished _ _ _).mp gone).2 listed
  have clean : path ∈ (catalog.reconcile files).2.staleness.lastClean ↔
      path ∈ catalog.staleness.lastClean := by
    rw [Std.ExtTreeMap.mem_iff_isSome_getElem?, getElem?_lastClean_reconcile_of_listing,
      if_pos listed, ← Std.ExtTreeMap.mem_iff_isSome_getElem?]
  have stale : (catalog.reconcile files).2.isStale path = true ↔
      path ∈ (catalog.reconcile files).2.staleness.dirty ∨
        ¬ path ∈ catalog.staleness.lastClean := by
    rw [Catalog.isStale, ← Bool.not_eq_false, Staleness.isStale_eq_false, clean,
      Classical.not_and_iff_not_or_not, Classical.not_not]
  rw [stale, mem_dirty_reconcile_iff files exact]
  simp only [present, not_false_iff, true_and, listed]
  cases known : catalog.staleness.lastClean[path]? with
  | none =>
      have unknown : ¬ path ∈ catalog.staleness.lastClean := by
        rw [Std.ExtTreeMap.mem_iff_isSome_getElem?, known]
        simp
      simp [unknown]
  | some time =>
      have isKnown : path ∈ catalog.staleness.lastClean := by
        rw [Std.ExtTreeMap.mem_iff_isSome_getElem?, known]
        rfl
      simp [isKnown]

theorem mem_dirty_reconcile_of_unlisted {path : String} (unlisted : ¬ path ∈ files.map (·.1)) :
    path ∈ (catalog.reconcile files).2.staleness.dirty ↔
      path ∈ catalog.staleness.dirty ∧ ¬ path ∈ catalog.staleness.lastClean := by
  have untimed : ∀ time, ¬ (path, time) ∈ files :=
    fun time member => unlisted (List.mem_map.mpr ⟨_, member, rfl⟩)
  rw [mem_dirty_reconcile_iff files exact, Staleness.mem_vanished]
  simp only [unlisted, untimed, not_false_iff, and_true, false_and, exists_false, or_false]
  exact and_comm

end Reconcile

/-- Whatever was done to a catalog and whatever files are listed, with or without repetitions: the
comparison with them is exact. -/
theorem reconcile_compares (records : Std.ExtTreeMap String Record) (staleness : Staleness)
    (actions : List Action) (enabled : Bool) (files : List (String × Timestamp)) :
    Compared (reached records staleness actions enabled) files
      ((reached records staleness actions enabled).reconcile files).1
      ((reached records staleness actions enabled).reconcile files).2 := by
  have exact := Exact.reached records staleness actions enabled
  generalize reached records staleness actions enabled = catalog at exact ⊢
  constructor
  case records => exact getElem?_records_reconcile_of_listing catalog files
  case ordered => exact pairwise_gone catalog files
  case missing =>
    intro path
    rw [mem_gone, and_comm, or_comm]
  case lastClean => exact getElem?_lastClean_reconcile_of_listing catalog files
  case importers => exact exact.reconcile files
  case stale => exact fun path listed => isStale_reconcile files exact listed
  case unlisted => exact fun path unlisted => mem_dirty_reconcile_of_unlisted files exact unlisted

end CodeIndex.Catalog
