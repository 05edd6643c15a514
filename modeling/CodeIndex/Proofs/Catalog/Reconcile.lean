import CodeIndex.Proofs.Catalog

/-!
Contract: what a catalog keeps when it is restored, and when it is compared with the files.

Owns:
- `foldl_toList_at`: a map gone through entry by entry, followed at one path;
- `Catalog.getElem?_records_ofState`, `Catalog.getElem?_lastClean_ofState`: what is restored;
- `Catalog.getElem?_records_reconcile`, `Catalog.mem_gone`: records go with the files that are gone;
- `Catalog.mem_dirty_reconcile`: a listed file becomes stale unless it was clean late enough.
-/

set_option autoImplicit false

namespace CodeIndex

/-- What one path comes to when the entries of a map are taken up one after the other, each of them
of concern to its own path only. -/
theorem foldl_toList_at {β γ : Type} (map : Std.ExtTreeMap String β) (path : String)
    (step : γ → String × β → γ) (holds : Option β → γ → Prop) {start : γ}
    (begins : holds none start)
    (other : ∀ value current entry, map[entry.1]? = some entry.2 → ¬ entry.1 = path →
      holds value current → holds value (step current entry))
    (self : ∀ value current, map[path]? = some value → holds none current →
      holds (some value) (step current (path, value))) :
    holds map[path]? (map.toList.foldl step start) := by
  have listed : ∀ entry ∈ map.toList, map[entry.1]? = some entry.2 :=
    fun entry member => Std.ExtTreeMap.mem_toList_iff_getElem?_eq_some.mp member
  have away : ∀ (entries : List (String × β)) (value : Option β) (current : γ),
      (∀ entry ∈ entries, entry ∈ map.toList ∧ ¬ entry.1 = path) → holds value current →
        holds value (entries.foldl step current) := by
    intro entries value current foreign start
    refine List.foldlRecOn (motive := holds value) entries _ start ?_
    intro reached kept entry member
    exact other value reached entry (listed entry (foreign entry member).1)
      (foreign entry member).2 kept
  cases found : map[path]? with
  | none =>
      refine away map.toList none start (fun entry member => ⟨member, ?_⟩) begins
      rintro rfl
      rw [listed entry member] at found
      exact absurd found (by simp)
  | some value =>
      -- The entry of the path stands once in the list; what is before it and after it is foreign.
      obtain ⟨before, after, split⟩ :=
        List.append_of_mem (Std.ExtTreeMap.mem_toList_iff_getElem?_eq_some.mpr found)
      have distinct := Std.ExtTreeMap.distinct_keys_toList (t := map)
      simp only [Std.LawfulEqCmp.compare_eq_iff_eq] at distinct
      rw [split, List.pairwise_append, List.pairwise_cons] at distinct
      obtain ⟨_, ⟨laterDiffer, _⟩, earlierDiffer⟩ := distinct
      rw [split, List.foldl_append, List.foldl_cons]
      apply away after
      · intro entry member
        refine ⟨by simp [split, member], fun same => ?_⟩
        exact laterDiffer entry member same.symm
      · apply self value _ found
        apply away before
        · intro entry member
          refine ⟨by simp [split, member], ?_⟩
          exact earlierDiffer entry member (path, value) (by simp)
        · exact begins

/-! ## Staleness -/

namespace Staleness

theorem getElem?_lastClean_foldl_remove (paths : List String) (staleness : Staleness)
    (path : String) :
    (paths.foldl remove staleness).lastClean[path]? =
      if path ∈ paths then none else staleness.lastClean[path]? := by
  induction paths generalizing staleness with
  | nil => simp
  | cons first rest inductionHypothesis =>
      rw [List.foldl_cons, inductionHypothesis, remove, Std.ExtTreeMap.getElem?_erase]
      simp only [Std.LawfulEqCmp.compare_eq_iff_eq, List.mem_cons]
      by_cases same : first = path
      · simp [same]
      · have differ : ¬ path = first := fun equal => same equal.symm
        simp [same, differ]

theorem lastClean_noteFile (staleness : Staleness) (file : String × Timestamp) :
    (staleness.noteFile file).lastClean = staleness.lastClean := by
  unfold noteFile
  split
  · split <;> rfl
  · rfl

theorem mem_dirty_noteFile (staleness : Staleness) (file : String × Timestamp) (path : String) :
    path ∈ (staleness.noteFile file).dirty ↔ path ∈ staleness.dirty ∨
      (file.1 = path ∧ ∀ clean, staleness.lastClean[path]? = some clean → ¬ file.2 ≤ clean) := by
  unfold noteFile
  by_cases same : file.1 = path
  · rw [same]
    cases staleness.lastClean[path]? with
    | none => simp
    | some clean =>
        by_cases late : file.2 ≤ clean
        · simp only [late, if_true, Option.some.injEq, forall_eq', not_true, and_false, or_false]
        · simp only [late, if_false, mem_dirty_markDirty, Option.some.injEq, forall_eq',
            not_false_iff, and_true, true_or, or_true]
  · cases staleness.lastClean[file.1]? with
    | none => simp [same]
    | some clean => by_cases late : file.2 ≤ clean <;> simp [late, same]

/-- A listed file becomes stale unless it was clean when it was last modified, or later. -/
theorem mem_dirty_foldl_noteFile (files : List (String × Timestamp)) (staleness : Staleness)
    (path : String) :
    path ∈ (files.foldl noteFile staleness).dirty ↔ path ∈ staleness.dirty ∨
      ∃ time, (path, time) ∈ files ∧
        ∀ clean, staleness.lastClean[path]? = some clean → ¬ time ≤ clean := by
  induction files generalizing staleness with
  | nil => simp
  | cons first rest inductionHypothesis =>
      rw [List.foldl_cons, inductionHypothesis, mem_dirty_noteFile, lastClean_noteFile, or_assoc]
      refine or_congr_right ?_
      constructor
      · rintro (⟨rfl, late⟩ | ⟨time, listed, late⟩)
        · exact ⟨first.2, List.mem_cons_self, late⟩
        · exact ⟨time, List.mem_cons_of_mem _ listed, late⟩
      · rintro ⟨time, listed, late⟩
        rcases List.mem_cons.mp listed with rfl | later
        · exact Or.inl ⟨rfl, late⟩
        · exact Or.inr ⟨time, later, late⟩

theorem mem_vanished (staleness : Staleness) (files : List (String × Timestamp)) (path : String) :
    path ∈ staleness.vanished files ↔
      path ∈ staleness.lastClean ∧ ¬ path ∈ files.map (·.1) := by
  simp [vanished, Std.ExtTreeSet.contains_ofList]

theorem mem_dirty_foldl_remove (paths : List String) (staleness : Staleness) (path : String) :
    path ∈ (paths.foldl remove staleness).dirty ↔
      ¬ path ∈ paths ∧ path ∈ staleness.dirty := by
  induction paths generalizing staleness with
  | nil => simp
  | cons first rest inductionHypothesis =>
      rw [List.foldl_cons, inductionHypothesis, mem_dirty_remove, List.mem_cons, not_or,
        and_left_comm, and_assoc, eq_comm]

theorem lastClean_foldl_noteFile (files : List (String × Timestamp)) (staleness : Staleness) :
    (files.foldl noteFile staleness).lastClean = staleness.lastClean :=
  List.foldlRecOn (motive := fun noted : Staleness => noted.lastClean = staleness.lastClean)
    files _ rfl fun noted kept file _ => (lastClean_noteFile noted file).trans kept

/-- The times of files that are gone are forgotten, the others are kept. -/
theorem getElem?_lastClean_reconcile (staleness : Staleness) (files : List (String × Timestamp))
    (path : String) :
    (staleness.reconcile files).2.lastClean[path]? =
      if path ∈ staleness.vanished files then none else staleness.lastClean[path]? := by
  rw [reconcile, lastClean_foldl_noteFile, getElem?_lastClean_foldl_remove]

/-- A file that is not gone is stale if it was before, or if it is listed with a time at which it
was not clean yet. -/
theorem mem_dirty_reconcile_of_present (staleness : Staleness) (files : List (String × Timestamp))
    (path : String) (present : ¬ path ∈ staleness.vanished files) :
    path ∈ (staleness.reconcile files).2.dirty ↔ path ∈ staleness.dirty ∨
      ∃ time, (path, time) ∈ files ∧
        ∀ clean, staleness.lastClean[path]? = some clean → ¬ time ≤ clean := by
  rw [reconcile, mem_dirty_foldl_noteFile, mem_dirty_foldl_remove,
    getElem?_lastClean_foldl_remove, if_neg present]
  simp only [present, not_false_iff, true_and]

theorem getElem?_entries (staleness : Staleness) (path : String) :
    staleness.entries[path]? =
      staleness.lastClean[path]?.map fun clean => if path ∈ staleness.dirty then 0 else clean := by
  simp only [entries, Std.ExtTreeMap.getElem?_map, Std.ExtTreeSet.contains_iff_mem]

end Staleness

namespace Catalog

/-! ## Restored catalogs -/

theorem staleness_restoreRecord (catalog : Catalog) (entry : String × Record) :
    (catalog.restoreRecord entry).staleness = catalog.staleness := by
  unfold restoreRecord
  split <;> rfl

/-- A record is restored if it is kept under its own path. -/
theorem getElem?_records_ofState (records : Std.ExtTreeMap String Record) (staleness : Staleness)
    (enabled : Bool) (path : String) :
    (ofState records staleness enabled).records[path]? =
      records[path]?.filter fun record => path = record.path := by
  unfold ofState
  refine foldl_toList_at records path restoreRecord (fun value catalog =>
    catalog.records[path]? = value.filter fun record => path = record.path) ?_ ?_ ?_
  · simp
  · intro value current entry _ foreign holds
    rw [← holds, restoreRecord]
    split
    · simp [link, Std.ExtTreeMap.getElem?_insert, foreign]
    · rfl
  · intro value current _ holds
    rw [restoreRecord]
    split
    · next own => simpa [Option.filter] using own
    · next foreign => simpa [foreign, Option.filter] using holds

theorem staleness_ofState (records : Std.ExtTreeMap String Record) (staleness : Staleness)
    (enabled : Bool) :
    (ofState records staleness enabled).staleness =
      (staleness.retain fun path =>
        (ofState records staleness enabled).records.contains path).2 := by
  have restored : (records.toList.foldl restoreRecord
      { staleness := staleness, enabled := enabled }).staleness = staleness :=
    List.foldlRecOn (motive := fun catalog : Catalog => catalog.staleness = staleness) _ _ rfl
      fun catalog kept entry _ => (staleness_restoreRecord catalog entry).trans kept
  unfold ofState
  simp only [restored]

/-- A file is known to be clean only if its record is restored. -/
theorem getElem?_lastClean_ofState (records : Std.ExtTreeMap String Record)
    (staleness : Staleness) (enabled : Bool) (path : String) :
    (ofState records staleness enabled).staleness.lastClean[path]? =
      if path ∈ (ofState records staleness enabled).records then staleness.lastClean[path]?
      else none := by
  rw [staleness_ofState]
  simp only [Staleness.retain, Std.ExtTreeMap.getElem?_filter']
  cases staleness.lastClean[path]? with
  | none => simp
  | some clean => simp [Option.filter, Std.ExtTreeMap.contains_iff_mem]

theorem enabled_ofState (records : Std.ExtTreeMap String Record) (staleness : Staleness)
    (enabled : Bool) : (ofState records staleness enabled).enabled = enabled := by
  have restored : (records.toList.foldl restoreRecord
      { staleness := staleness, enabled := enabled }).enabled = enabled := by
    refine List.foldlRecOn (motive := fun catalog : Catalog => catalog.enabled = enabled) _ _ rfl ?_
    intro catalog kept entry _
    unfold restoreRecord
    split
    · exact kept
    · exact kept
  exact restored

/-! ## Dropped records -/

theorem records_dropRecord (catalog : Catalog) (path : String) :
    (catalog.dropRecord path).2.records = catalog.records.erase path := by
  unfold dropRecord
  cases found : catalog.records[path]? with
  | some old => rfl
  | none => exact (erase_eq_of_unknown found).symm

theorem staleness_dropRecord (catalog : Catalog) (path : String) :
    (catalog.dropRecord path).2.staleness = catalog.staleness := by
  unfold dropRecord
  split <;> rfl

theorem enabled_dropRecord (catalog : Catalog) (path : String) :
    (catalog.dropRecord path).2.enabled = catalog.enabled := by
  unfold dropRecord
  split <;> rfl

theorem enabled_dropRecords (paths : List String) (catalog : Catalog) :
    (catalog.dropRecords paths).2.enabled = catalog.enabled := by
  induction paths generalizing catalog with
  | nil => rfl
  | cons first rest inductionHypothesis =>
      rw [dropRecords]
      simp only [inductionHypothesis, enabled_dropRecord]

/-- Whether files can be parsed does not depend on the files. -/
theorem enabled_reconcile (catalog : Catalog) (files : List (String × Timestamp)) :
    (catalog.reconcile files).2.enabled = catalog.enabled := by
  unfold reconcile
  dsimp only
  refine List.foldlRecOn (motive := fun marked : Catalog => marked.enabled = catalog.enabled) _ _ ?_
    ?_
  · rw [enabled_dropRecords]
  · intro marked kept path _
    rw [markImporters_eq]
    exact kept

theorem getElem?_records_dropRecords (paths : List String) (catalog : Catalog) (path : String) :
    (catalog.dropRecords paths).2.records[path]? =
      if path ∈ paths then none else catalog.records[path]? := by
  induction paths generalizing catalog with
  | nil => simp [dropRecords]
  | cons first rest inductionHypothesis =>
      rw [dropRecords]
      simp only [inductionHypothesis, records_dropRecord, Std.ExtTreeMap.getElem?_erase,
        Std.LawfulEqCmp.compare_eq_iff_eq, List.mem_cons]
      by_cases same : first = path
      · simp [same]
      · have differ : ¬ path = first := fun equal => same equal.symm
        simp [same, differ]

theorem staleness_dropRecords (paths : List String) (catalog : Catalog) :
    (catalog.dropRecords paths).2.staleness = catalog.staleness := by
  induction paths generalizing catalog with
  | nil => rfl
  | cons first rest inductionHypothesis =>
      rw [dropRecords]
      simp only [inductionHypothesis, staleness_dropRecord]

theorem fst_dropRecord (catalog : Catalog) (path : String) :
    (catalog.dropRecord path).1 = true ↔ Record.Exposes catalog.records[path]? none := by
  unfold dropRecord
  cases catalog.records[path]? with
  | none => simp [Record.Exposes]
  | some old => simp [Record.Exposes]

/-- Of several records that are dropped, those are given that others could see. -/
theorem mem_fst_dropRecords (paths : List String) (catalog : Catalog) (path : String) :
    path ∈ (catalog.dropRecords paths).1 ↔
      path ∈ paths ∧ Record.Exposes catalog.records[path]? none := by
  induction paths generalizing catalog with
  | nil => simp [dropRecords]
  | cons first rest inductionHypothesis =>
      have given : path ∈ (catalog.dropRecords (first :: rest)).1 ↔
          ((catalog.dropRecord first).1 = true ∧ path = first) ∨
            path ∈ ((catalog.dropRecord first).2.dropRecords rest).1 := by
        rw [dropRecords]
        dsimp only
        split
        · next visible => simp [visible]
        · next hidden => simp [hidden]
      rw [given, inductionHypothesis, fst_dropRecord, records_dropRecord, List.mem_cons]
      by_cases same : path = first
      · subst same
        simp [Record.Exposes]
      · have differ : ¬ first = path := fun equal => same equal.symm
        simp [same, differ, Std.ExtTreeMap.getElem?_erase]

/-- Marking importers changes nothing but what is stale: the importers become so. -/
theorem foldl_markImporters (paths : List String) (catalog : Catalog) :
    ∃ dirty, paths.foldl (fun marked path => (marked.markImporters path).2) catalog =
        { catalog with staleness := ⟨dirty, catalog.staleness.lastClean⟩ } ∧
      ∀ path, path ∈ dirty ↔ path ∈ catalog.staleness.dirty ∨
        ∃ gone ∈ paths, path ∈ catalog.importersOf gone := by
  induction paths generalizing catalog with
  | nil => exact ⟨catalog.staleness.dirty, rfl, by simp⟩
  | cons first rest inductionHypothesis =>
      obtain ⟨dirty, marked, members⟩ := inductionHypothesis
        { catalog with
          staleness := (catalog.importersOf first).foldl Staleness.markDirty catalog.staleness }
      simp only [Staleness.lastClean_foldl_markDirty, importersOf_with_staleness,
        Staleness.mem_dirty_foldl_markDirty] at marked members
      refine ⟨dirty, ?_, fun path => ?_⟩
      · rw [List.foldl_cons, markImporters_eq, marked]
      · rw [members, or_comm (a := path ∈ catalog.importersOf first), or_assoc]
        simp only [List.mem_cons, exists_eq_or_imp]

/-! ## Comparison with the files -/

section Reconcile

variable (catalog : Catalog) (files : List (String × Timestamp)) (path : String)

/-- Gone is what was clean once or has a record, and is not listed. -/
theorem mem_gone :
    path ∈ (catalog.reconcile files).1 ↔
      (path ∈ catalog.staleness.lastClean ∨ path ∈ catalog.records) ∧
        ¬ path ∈ files.map (·.1) := by
  have unlisted : path ∈ catalog.unlisted files ↔
      path ∈ catalog.records ∧ ¬ path ∈ files.map (·.1) := by
    simp [Catalog.unlisted, Std.ExtTreeSet.contains_ofList]
  simp only [reconcile, Std.ExtTreeSet.mem_toList, Std.ExtTreeSet.mem_ofList,
    List.contains_iff_mem, List.mem_append, unlisted, Staleness.reconcile,
    Staleness.mem_vanished, or_and_right]

/-- The catalog without the records of files that are gone, before their importers are marked. -/
def withoutGone : Catalog :=
  ({ catalog with staleness := (catalog.staleness.reconcile files).2 }.dropRecords
    (catalog.reconcile files).1).2

theorem getElem?_records_withoutGone :
    (catalog.withoutGone files).records[path]? =
      if path ∈ (catalog.reconcile files).1 then none else catalog.records[path]? :=
  getElem?_records_dropRecords _ _ path

theorem mem_records_iff : path ∈ catalog.records ↔ catalog.records[path]?.isSome :=
  Std.ExtTreeMap.mem_iff_isSome_getElem?

theorem listed_of_mem_records_withoutGone {catalog : Catalog} {files : List (String × Timestamp)}
    {path : String} (recorded : path ∈ (catalog.withoutGone files).records) :
    path ∈ files.map (·.1) := by
  rw [mem_records_iff, getElem?_records_withoutGone] at recorded
  split at recorded
  · exact absurd recorded (by simp)
  · next present =>
      rw [← mem_records_iff] at recorded
      rw [mem_gone] at present
      apply Classical.byContradiction
      exact fun unlisted => present ⟨Or.inr recorded, unlisted⟩

/-- Beside the files that the listing says something about, the importers of files become stale that
are gone and that others could see. -/
theorem reconcile_eq :
    ∃ dirty, (catalog.reconcile files).2 =
        { catalog.withoutGone files with
          staleness := ⟨dirty, (catalog.staleness.reconcile files).2.lastClean⟩ } ∧
      ∀ path, path ∈ dirty ↔ path ∈ (catalog.staleness.reconcile files).2.dirty ∨
        ∃ gone ∈ (catalog.reconcile files).1, Record.Exposes catalog.records[gone]? none ∧
          path ∈ (catalog.withoutGone files).importersOf gone := by
  have staleness : (catalog.withoutGone files).staleness =
      (catalog.staleness.reconcile files).2 := staleness_dropRecords _ _
  obtain ⟨dirty, marked, members⟩ := foldl_markImporters
    ({ catalog with staleness := (catalog.staleness.reconcile files).2 }.dropRecords
      (catalog.reconcile files).1).1 (catalog.withoutGone files)
  rw [staleness] at marked members
  simp only [mem_fst_dropRecords, and_assoc] at members
  exact ⟨dirty, marked, members⟩

theorem getElem?_records_reconcile :
    (catalog.reconcile files).2.records[path]? =
      if path ∈ (catalog.reconcile files).1 then none else catalog.records[path]? := by
  obtain ⟨_, reconciled, _⟩ := catalog.reconcile_eq files
  rw [reconciled]
  exact catalog.getElem?_records_withoutGone files path

/-- If nothing is gone, no more changes than what is stale. -/
theorem reconcile_of_present (present : (catalog.reconcile files).1 = []) :
    (catalog.reconcile files).2 =
      { catalog with staleness := (catalog.staleness.reconcile files).2 } := by
  dsimp only [reconcile] at present ⊢
  rw [present]
  rfl

/-- A listed file is stale unless it was clean when it was last modified, or later. -/
theorem mem_dirty_reconcile {time : Timestamp} (listed : (path, time) ∈ files)
    (late : ∀ clean, catalog.staleness.lastClean[path]? = some clean → ¬ time ≤ clean) :
    path ∈ (catalog.reconcile files).2.staleness.dirty := by
  obtain ⟨_, reconciled, members⟩ := catalog.reconcile_eq files
  have present : ¬ path ∈ catalog.staleness.vanished files := by
    rw [Staleness.mem_vanished]
    exact fun gone => gone.2 (List.mem_map.mpr ⟨_, listed, rfl⟩)
  rw [reconciled]
  refine (members path).mpr (Or.inl ?_)
  rw [Staleness.mem_dirty_reconcile_of_present _ _ _ present]
  exact Or.inr ⟨time, listed, late⟩

end Reconcile

end Catalog

end CodeIndex
