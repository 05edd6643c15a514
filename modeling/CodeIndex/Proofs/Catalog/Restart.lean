import CodeIndex.Proofs.Catalog.Reconcile

/-!
Contract: which files are known to have changed after a restart.

Owns:
- `Staleness.restarted`: what is known once the kept entries have been compared with the files;
- `Staleness.mem_listStale_restarted`: the files that are stale then;
- `Staleness.pending_survives_restart`: a stale file stays stale if it is new, or was modified after
  time zero, and a clean one stays clean.

Which files are stale is not kept as such: their entries get the time zero. A file that was modified
at that time or before is taken for a clean one: `Staleness.epoch_file_is_forgotten`.
-/

set_option autoImplicit false

namespace CodeIndex.Staleness

/-- What is known after a restart, when the kept entries have been compared with the files. -/
def restarted (staleness : Staleness) (files : List (String × Timestamp)) : Staleness :=
  ((ofEntries staleness.entries).reconcile files).2

section Restarted

variable (staleness : Staleness) (files : List (String × Timestamp)) (path : String)

/-- The time that is kept of a file vouches for it, and nothing else does. -/
theorem mem_listStale_restarted :
    path ∈ (staleness.restarted files).listStale ↔
      ∃ time, (path, time) ∈ files ∧ ∀ clean, staleness.lastClean[path]? = some clean →
        (if path ∈ staleness.dirty then 0 else clean) < time := by
  rw [mem_listStale, restarted]
  by_cases gone : path ∈ (ofEntries staleness.entries).vanished files
  · -- Nothing is dirty before the comparison, and a file that is gone is not listed.
    have unlisted := ((mem_vanished _ _ _).mp gone).2
    have unmarked : ¬ path ∈ ((ofEntries staleness.entries).reconcile files).2.dirty := by
      rw [reconcile, mem_dirty_foldl_noteFile, mem_dirty_foldl_remove]
      rintro (⟨present, _⟩ | ⟨time, listed, _⟩)
      · exact present gone
      · exact unlisted (List.mem_map.mpr ⟨_, listed, rfl⟩)
    refine ⟨fun marked => absurd marked unmarked, ?_⟩
    rintro ⟨time, listed, _⟩
    exact absurd (List.mem_map.mpr ⟨_, listed, rfl⟩) unlisted
  · rw [mem_dirty_reconcile_of_present _ _ _ gone]
    simp only [ofEntries, getElem?_entries, Option.map_eq_some_iff, forall_exists_index, and_imp,
      forall_apply_eq_imp_iff₂, Int64.not_le, Std.ExtTreeSet.not_mem_empty, false_or]

theorem getElem?_lastClean_restarted (listed : path ∈ files.map (·.1)) :
    (staleness.restarted files).lastClean[path]? = staleness.entries[path]? := by
  have present : ¬ path ∈ (ofEntries staleness.entries).vanished files :=
    fun gone => ((mem_vanished _ _ _).mp gone).2 listed
  rw [restarted, getElem?_lastClean_reconcile, if_neg present, ofEntries]

/-- A file that is dirty when the entries are taken is stale after a restart, if it was never clean
or is listed as modified after time zero, and only then. A file that is neither dirty nor modified
after it was clean is not stale. -/
theorem pending_survives_restart :
    (path ∈ staleness.dirty → path ∈ files.map (·.1) →
      (path ∈ (staleness.restarted files).listStale ↔
        ¬ path ∈ staleness.lastClean ∨ ∃ time, (path, time) ∈ files ∧ 0 < time)) ∧
    (¬ path ∈ staleness.dirty → path ∈ files.map (·.1) →
      ∀ clean, staleness.lastClean[path]? = some clean →
        (∀ time, (path, time) ∈ files → time ≤ clean) →
          (staleness.restarted files).isStale path = false) := by
  constructor
  · intro dirty listed
    rw [mem_listStale_restarted]
    simp only [dirty, if_true, Std.ExtTreeMap.mem_iff_isSome_getElem?]
    cases staleness.lastClean[path]? with
    | none => simpa using listed
    | some clean => simp
  · intro fresh listed clean known early
    rw [isStale_eq_false, ← mem_listStale, mem_listStale_restarted]
    constructor
    · rintro ⟨time, inFiles, late⟩
      have after := late clean known
      rw [if_neg fresh] at after
      exact Int64.not_le.mpr after (early time inFiles)
    · rw [Std.ExtTreeMap.mem_iff_isSome_getElem?, getElem?_lastClean_restarted _ _ _ listed,
        getElem?_entries, known]
      rfl

end Restarted

/-! ## Two files, one of them dirty -/

def sampleStaleness : Staleness :=
  ((empty.markClean "a.ts" 100).markClean "b.ts" 100).markDirty "b.ts"

/-- Of two files that were modified before they were clean, the dirty one is stale again. -/
theorem sampleStaleness_restarted :
    "b.ts" ∈ sampleStaleness.dirty ∧ ¬ "a.ts" ∈ sampleStaleness.dirty ∧
      "b.ts" ∈ (sampleStaleness.restarted [("a.ts", 90), ("b.ts", 90)]).listStale ∧
      (sampleStaleness.restarted [("a.ts", 90), ("b.ts", 90)]).isStale "a.ts" = false := by
  have dirty : "b.ts" ∈ sampleStaleness.dirty := by decide
  have fresh : ¬ "a.ts" ∈ sampleStaleness.dirty := by decide
  have clean : sampleStaleness.lastClean["a.ts"]? = some 100 := by decide
  refine ⟨dirty, fresh, ?_, ?_⟩
  · exact ((pending_survives_restart _ _ _).1 dirty (by decide)).mpr
      (Or.inr ⟨90, by decide, by decide⟩)
  · apply (pending_survives_restart _ _ _).2 fresh (by decide) 100 clean
    intro time listed
    have ninety : time = 90 := by simpa using listed
    rw [ninety]
    decide

/-- A dirty file that was modified at time zero is not stale after a restart. -/
theorem epoch_file_is_forgotten :
    "b.ts" ∈ sampleStaleness.dirty ∧
      (sampleStaleness.restarted [("a.ts", 90), ("b.ts", 0)]).listStale = [] := by
  decide

end CodeIndex.Staleness
