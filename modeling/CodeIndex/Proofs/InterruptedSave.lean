import CodeIndex.Proofs.Incremental
import CodeIndex.Proofs.Model.Coherence

/-!
Contract: what a model finds in a state that was saved only in part.

Owns:
- `State.interrupted`: the state that a save leaves when it stops after some of its documents;
- `Model.Noted`: a file is stale, or its record is of what it holds;
- `State.Hides`: a state vouches for a record that is outdated;
- `Model.resumed_is_current`: after a run over the stale files, only a record that the state vouches
  for can be outdated, and only if the save stopped before it wrote the records.

The times at which files were clean are written before the records they vouch for. A save that stops
between the two leaves new times beside old records: `Model.overtaken_record_is_hidden`. A time
without any record is not restored, so a record that is missing does no harm.
-/

set_option autoImplicit false

namespace CodeIndex

/-! ## States saved in part -/

namespace State

/-- The state kept in a directory after some of the documents of a later state have been written
over those of an earlier one. -/
def interrupted (earlier later : State) : Nat → State
  | 0 => earlier
  | 1 => { earlier with clean := later.clean }
  | 2 => { later with fingerprints := earlier.fingerprints }
  | _ => later

theorem documents_interrupted (earlier later : State) (count : Nat) :
    (interrupted earlier later count).documents =
      later.documents.take count ++ earlier.documents.drop count := by
  match count with
  | 0 => rfl
  | 1 => rfl
  | 2 => rfl
  | more + 3 => simp [interrupted, documents]

theorem records_interrupted_of_written (earlier later : State) {count : Nat}
    (written : 2 ≤ count) :
    (interrupted earlier later count).records = later.records ∧
      (interrupted earlier later count).clean = later.clean := by
  match count with
  | 2 => exact ⟨rfl, rfl⟩
  | more + 3 => exact ⟨rfl, rfl⟩

theorem records_interrupted_of_unwritten (earlier later : State) {count : Nat}
    (unwritten : count < 2) : (interrupted earlier later count).records = earlier.records := by
  match count with
  | 0 => rfl
  | 1 => rfl

/-- A state has a record of other bytes, and a time that vouches for it: the file was last modified
at that time or before. -/
def Hides (state : State) (workspace : Workspace) (tree : FileTree) (path : String)
    (bytes : ByteArray) : Prop :=
  ∃ record clean, state.records[path]? = some record ∧ record.path = path ∧
    ¬ record.fingerprint = fingerprint bytes ∧ state.clean[path]? = some clean ∧
    (workspace.modified? tree path).getD Int64.maxValue ≤ clean

end State

namespace Model

/-! ## Files that will be current -/

/-- A file is stale, or its record is of the given bytes. -/
def Noted (catalog : Catalog) (path : String) (bytes : ByteArray) : Prop :=
  path ∈ catalog.staleness.dirty ∨
    ∃ record, catalog.records[path]? = some record ∧ record.fingerprint = fingerprint bytes

theorem Noted.ofSets {before after : Catalog} {path other : String} {record : Option Record}
    {bytes : ByteArray} (noted : Noted before path bytes)
    (sets : Catalog.Sets other record before after)
    (self : other = path →
      ∃ made, record = some made ∧ made.fingerprint = fingerprint bytes) :
    Noted after path bytes := by
  by_cases same : other = path
  · obtain ⟨made, isMade, current⟩ := self same
    exact Or.inr ⟨made, by rw [← same, sets.self, isMade], current⟩
  · rcases noted with dirty | ⟨kept, found, current⟩
    · exact Or.inl (sets.kept path same dirty)
    · exact Or.inr ⟨kept, (sets.others path same).trans found, current⟩

/-- A file that can be read stays noted whichever file is brought up to date. -/
theorem Noted.refresh {model : Model} {tree : FileTree} {path : String} {bytes : ByteArray}
    (noted : Noted model.catalog path bytes)
    (read : model.workspace.read tree path = .ok bytes) (other : String) (now : Timestamp) :
    Noted (model.refresh tree other now).2.catalog path bytes := by
  have spec := model.refresh_spec tree other now
  generalize (model.refresh tree other now).1 = status at spec
  generalize (model.refresh tree other now).2 = after at spec ⊢
  cases spec with
  | cached _ _ => exact noted
  | failed _ => exact noted
  | unchanged found old readOther known same =>
      apply noted.ofSets (Catalog.sets_refreshRecord model.catalog other old now)
      rintro rfl
      obtain rfl := Except.ok.inj (readOther.symm.trans read)
      exact ⟨_, rfl, same⟩
  | indexed found readOther differs =>
      have sets := Catalog.sets_replace model.catalog (Record.ofBytes other found now)
      rw [Record.path_ofBytes] at sets
      apply noted.ofSets sets
      rintro rfl
      obtain rfl := Except.ok.inj (readOther.symm.trans read)
      exact ⟨_, rfl, Record.fingerprint_ofBytes _ _ _⟩
  | removed missing =>
      apply noted.ofSets (Catalog.sets_removeFile model.catalog other)
      rintro rfl
      rw [read] at missing
      exact absurd missing (by simp)

/-- A run over the stale files leaves a record of what the file holds. -/
theorem Noted.reindex {model : Model} {tree : FileTree} {path : String} {bytes : ByteArray}
    (noted : Noted model.catalog path bytes) (on : model.catalog.enabled = true)
    (read : model.workspace.read tree path = .ok bytes)
    (indexable : (Language.ofPath path).isIndexable = true) (now : Timestamp) :
    ∃ record, (model.reindex { tree := tree, now := now }).2.catalog.records[path]? = some record ∧
      record.fingerprint = fingerprint bytes := by
  have kept : Noted (model.reindex { tree := tree, now := now }).2.catalog path bytes := by
    refine (reindex_induction (P := fun reached => reached.workspace = model.workspace ∧
      Noted reached.catalog path bytes) (Q := fun _ => True) (fun _ _ _ _ => trivial) ?_
      ⟨rfl, noted⟩).2
    rintro reached other ⟨same, still⟩ _
    have readThere : reached.workspace.read tree path = .ok bytes := by rw [same, read]
    exact ⟨(workspace_refresh reached tree other now).trans same,
      still.refresh readThere other now⟩
  refine kept.resolve_left ?_
  intro dirty
  rcases unreadable_of_dirty_reindex dirty with off | foreign | ⟨reason, failed, _⟩
  · exact absurd (off.symm.trans on) (by simp)
  · exact absurd (foreign.symm.trans indexable) (by simp)
  · rw [read] at failed
    exact absurd failed (by simp)

/-! ## Kept state -/

/-- A listed file is noted by a model of kept state, unless the state hides it. -/
theorem noted_ofState {workspace : Workspace} {config : Config} {state : State} {tree : FileTree}
    {path : String} {bytes : ByteArray} (listed : path ∈ workspace.listFiles tree)
    (shown : ¬ state.Hides workspace tree path bytes) :
    Noted (ofState workspace config state tree).catalog path bytes := by
  obtain ⟨_, _, frame⟩ := ofState_frame workspace config state tree true
  rw [frame]
  let time := (workspace.modified? tree path).getD Int64.maxValue
  have inListing : (path, time) ∈ (restored workspace config state).listing tree :=
    List.mem_map.mpr ⟨path, listed, rfl⟩
  by_cases late : ∀ clean,
      (Catalog.ofState state.records (.ofEntries state.clean)).staleness.lastClean[path]? =
        some clean → ¬ time ≤ clean
  · exact Or.inl (Catalog.mem_dirty_reconcile _ _ path inListing late)
  · -- The time vouches for a record that was restored with it, so this one must be current.
    obtain ⟨clean, isClean, early⟩ : ∃ clean,
        (Catalog.ofState state.records (.ofEntries state.clean)).staleness.lastClean[path]? =
          some clean ∧ time ≤ clean := by
      simpa only [Classical.not_forall, Classical.not_not, exists_prop] using late
    rw [Catalog.getElem?_lastClean_ofState] at isClean
    split at isClean
    · next member =>
        obtain ⟨record, found⟩ := Option.isSome_iff_exists.mp
          (Std.ExtTreeMap.mem_iff_isSome_getElem?.mp member)
        obtain ⟨kept, own⟩ := Option.filter_eq_some_iff.mp
          ((Catalog.getElem?_records_ofState _ _ _ _).symm.trans found)
        have current : record.fingerprint = fingerprint bytes := by
          apply Classical.byContradiction
          intro outdated
          exact shown ⟨record, clean, kept, (of_decide_eq_true own).symm, outdated, isClean, early⟩
        have stays : ¬ path ∈ ((restored workspace config state).catalog.reconcile
            ((restored workspace config state).listing tree)).1 := by
          rw [Catalog.mem_gone]
          exact fun gone => gone.2 (List.mem_map.mpr ⟨_, inListing, rfl⟩)
        refine Or.inr ⟨record, ?_, current⟩
        rw [Catalog.getElem?_records_reconcile, if_neg stays]
        exact found
    · exact absurd isClean (by simp)

/-- The model that is opened from a state and then goes through the stale files. -/
def resume (workspace : Workspace) (config : Config) (state : State) (tree : FileTree)
    (now : Timestamp) : Model :=
  ((ofState workspace config state tree).reindex { tree := tree, now := now }).2

theorem current_resume {workspace : Workspace} {state : State} {tree : FileTree} {path : String}
    {bytes : ByteArray} (config : Config) (now : Timestamp)
    (listed : path ∈ workspace.listFiles tree) (read : workspace.read tree path = .ok bytes)
    (shown : ¬ state.Hides workspace tree path bytes) :
    ∃ record, (resume workspace config state tree now).catalog.records[path]? = some record ∧
      record.fingerprint = fingerprint bytes := by
  have there : (ofState workspace config state tree).workspace.read tree path = .ok bytes := by
    obtain ⟨_, _, frame⟩ := ofState_frame workspace config state tree true
    rw [frame]
    exact read
  unfold resume
  exact (noted_ofState listed shown).reindex (enabled_ofState workspace config state tree true)
    there (Workspace.indexable_of_mem_listFiles listed) now

/-- A model whose clean records are of what the files hold hides nothing in the state it saves, if
files have been modified after time zero: stale files are kept with that time. -/
theorem not_hides_state {model : Model} {kept : State} {tree : FileTree} {path : String}
    {bytes : ByteArray} (records : kept.records = model.state.records)
    (clean : kept.clean = model.state.clean)
    (matching : ∀ record, model.catalog.records[path]? = some record →
      ¬ path ∈ model.catalog.staleness.dirty → record.fingerprint = fingerprint bytes)
    (dated : 0 < (model.workspace.modified? tree path).getD Int64.maxValue) :
    ¬ kept.Hides model.workspace tree path bytes := by
  rintro ⟨record, time, found, _, outdated, isClean, early⟩
  rw [records] at found
  have dirty : path ∈ model.catalog.staleness.dirty := by
    apply Classical.byContradiction
    exact fun fresh => outdated (matching record found fresh)
  rw [clean, state, Staleness.getElem?_entries] at isClean
  obtain ⟨_, _, isZero⟩ := Option.map_eq_some_iff.mp isClean
  rw [if_pos dirty] at isZero
  rw [← isZero] at early
  exact absurd (Int64.lt_of_lt_of_le dated early) (Int64.lt_irrefl)

/-- However many of its documents a save has written over those of an earlier state, if the clean
records of the model are of what the files hold: the next run leaves a current record of a listed
file, unless the records were not yet written, the earlier record of the file is outdated, and the
time that is kept with it vouches for it. -/
theorem resumed_is_current {model : Model} {tree : FileTree} (config : Config) (earlier : State)
    (now : Timestamp)
    (matching : ∀ path record bytes, model.catalog.records[path]? = some record →
      ¬ path ∈ model.catalog.staleness.dirty → model.workspace.read tree path = .ok bytes →
        record.fingerprint = fingerprint bytes)
    (readable : ∀ path ∈ model.workspace.listFiles tree,
      ∃ bytes, model.workspace.read tree path = .ok bytes)
    (dated : ∀ path ∈ model.workspace.listFiles tree,
      0 < (model.workspace.modified? tree path).getD Int64.maxValue)
    (count : Nat) :
    (State.interrupted earlier model.state count).documents =
        model.state.documents.take count ++ earlier.documents.drop count ∧
      ∀ path ∈ model.workspace.listFiles tree,
        ∃ bytes, model.workspace.read tree path = .ok bytes ∧
          ((∃ record, (resume model.workspace config
                (State.interrupted earlier model.state count) tree now).catalog.records[path]? =
                  some record ∧
              record.fingerprint = fingerprint bytes) ∨
            (count < 2 ∧ ∃ record clean, earlier.records[path]? = some record ∧
              ¬ record.fingerprint = fingerprint bytes ∧
              (State.interrupted earlier model.state count).clean[path]? = some clean ∧
              (model.workspace.modified? tree path).getD Int64.maxValue ≤ clean)) := by
  refine ⟨State.documents_interrupted _ _ _, ?_⟩
  intro path listed
  obtain ⟨bytes, read⟩ := readable path listed
  refine ⟨bytes, read, ?_⟩
  by_cases hidden : (State.interrupted earlier model.state count).Hides model.workspace tree path
      bytes
  · right
    by_cases written : 2 ≤ count
    · obtain ⟨records, clean⟩ := State.records_interrupted_of_written earlier model.state written
      refine absurd hidden (not_hides_state records clean ?_ (dated path listed))
      exact fun record found fresh => matching path record bytes found fresh read
    · have unwritten : count < 2 := by omega
      obtain ⟨record, clean, found, _, outdated, isClean, early⟩ := hidden
      rw [State.records_interrupted_of_unwritten _ _ unwritten] at found
      exact ⟨unwritten, record, clean, found, outdated, isClean, early⟩
  · exact Or.inl (current_resume config now listed read hidden)

/-! ## A save that stops early -/

open LiveModel (sampleWorkspace sampleConfig sampleTree reducedTree firstFile changedFile)

/-- A model that is saved while there is one file. -/
def earlierModel : Model :=
  (LiveModel.fresh sampleWorkspace sampleConfig sampleTree).reindexed 1500

/-- The same model after the file has been changed and indexed again. -/
def laterModel : Model :=
  ((earlierModel.apply { kind := .changed, path := "a.ts" }).reindex
    { tree := reducedTree, now := 2500 }).2

theorem workspace_laterModel : laterModel.workspace = sampleWorkspace := by
  have opened : earlierModel.workspace = sampleWorkspace := by
    obtain ⟨_, _, frame⟩ := ofState_frame sampleWorkspace sampleConfig {} sampleTree true
    rw [earlierModel, LiveModel.reindexed, workspace_reindex, LiveModel.fresh, frame]
  rw [laterModel, workspace_reindex, apply_of_there _ (by decide), opened]

theorem read_changed : sampleWorkspace.read reducedTree "a.ts" = .ok changedFile.bytes := by
  have found : (sampleWorkspace.read reducedTree "a.ts").toOption = some changedFile.bytes := by
    decide +kernel
  cases read : sampleWorkspace.read reducedTree "a.ts" with
  | error reason => simp [read, Except.toOption] at found
  | ok bytes =>
      rw [read] at found
      exact congrArg Except.ok (Option.some.inj found)

theorem listFiles_changed : sampleWorkspace.listFiles reducedTree = ["a.ts"] := by
  decide +kernel

theorem laterModel_values :
    (laterModel.catalog.records.toList.map fun entry => (entry.1, entry.2.fingerprint)) =
        [("a.ts", fingerprint changedFile.bytes)] ∧
      laterModel.catalog.listStale = [] ∧
      laterModel.catalog.staleness.lastClean["a.ts"]? = some 2500 ∧
      (resume sampleWorkspace sampleConfig
          (State.interrupted earlierModel.state laterModel.state 1) reducedTree
          3000).catalog.records["a.ts"]?.map (·.fingerprint) =
        some (fingerprint firstFile.bytes) := by
  decide +kernel

/-- All records of the later model are of what the files hold. -/
theorem matching_laterModel (path : String) (record : Record) (bytes : ByteArray)
    (found : laterModel.catalog.records[path]? = some record)
    (read : laterModel.workspace.read reducedTree path = .ok bytes) :
    record.fingerprint = fingerprint bytes := by
  have listed : (path, record.fingerprint) ∈
      laterModel.catalog.records.toList.map fun entry => (entry.1, entry.2.fingerprint) :=
    List.mem_map.mpr ⟨_, Std.ExtTreeMap.mem_toList_iff_getElem?_eq_some.mpr found, rfl⟩
  rw [laterModel_values.1, List.mem_singleton, Prod.mk.injEq] at listed
  obtain ⟨rfl, same⟩ := listed
  rw [workspace_laterModel, read_changed] at read
  rw [same, Except.ok.inj read]

/-- Saved up to its second document, the later state leads to the current record. -/
theorem resumed_after_two_documents :
    (∀ path record bytes, laterModel.catalog.records[path]? = some record →
        ¬ path ∈ laterModel.catalog.staleness.dirty →
        laterModel.workspace.read reducedTree path = .ok bytes →
          record.fingerprint = fingerprint bytes) ∧
      (∀ path ∈ laterModel.workspace.listFiles reducedTree,
        ∃ bytes, laterModel.workspace.read reducedTree path = .ok bytes) ∧
      (∀ path ∈ laterModel.workspace.listFiles reducedTree,
        0 < (laterModel.workspace.modified? reducedTree path).getD Int64.maxValue) ∧
      ∃ record, (resume laterModel.workspace sampleConfig
          (State.interrupted earlierModel.state laterModel.state 2) reducedTree
          3000).catalog.records["a.ts"]? = some record ∧
        record.fingerprint = fingerprint changedFile.bytes := by
  have matching : ∀ path record bytes, laterModel.catalog.records[path]? = some record →
      ¬ path ∈ laterModel.catalog.staleness.dirty →
      laterModel.workspace.read reducedTree path = .ok bytes →
        record.fingerprint = fingerprint bytes :=
    fun path record bytes found _ read => matching_laterModel path record bytes found read
  have readable : ∀ path ∈ laterModel.workspace.listFiles reducedTree,
      ∃ bytes, laterModel.workspace.read reducedTree path = .ok bytes := by
    rw [workspace_laterModel, listFiles_changed]
    intro path listed
    rw [List.mem_singleton.mp listed]
    exact ⟨_, read_changed⟩
  have dated : ∀ path ∈ laterModel.workspace.listFiles reducedTree,
      0 < (laterModel.workspace.modified? reducedTree path).getD Int64.maxValue := by
    rw [workspace_laterModel]
    decide +kernel
  have listed : "a.ts" ∈ laterModel.workspace.listFiles reducedTree := by
    rw [workspace_laterModel, listFiles_changed]
    exact List.mem_singleton.mpr rfl
  refine ⟨matching, readable, dated, ?_⟩
  obtain ⟨bytes, read, current | ⟨early, _⟩⟩ := (resumed_is_current sampleConfig
    earlierModel.state 3000 matching readable dated 2).2 "a.ts" listed
  · rw [workspace_laterModel, read_changed] at read
    rwa [Except.ok.inj read]
  · exact absurd early (by decide)

/-- Saved up to its first document only, it leads to a record that is outdated, although all records
of the model were current and no file had been modified after it was last clean. -/
theorem overtaken_record_is_hidden :
    (∀ path record bytes, laterModel.catalog.records[path]? = some record →
        laterModel.workspace.read reducedTree path = .ok bytes →
          record.fingerprint = fingerprint bytes) ∧
      laterModel.catalog.listStale = [] ∧
      laterModel.workspace.listFiles reducedTree = ["a.ts"] ∧
      laterModel.workspace.modified? reducedTree "a.ts" = some 2000 ∧
      laterModel.catalog.staleness.lastClean["a.ts"]? = some 2500 ∧
      laterModel.workspace.read reducedTree "a.ts" = .ok changedFile.bytes ∧
      (resume laterModel.workspace sampleConfig
          (State.interrupted earlierModel.state laterModel.state 1) reducedTree
          3000).catalog.records["a.ts"]?.map (·.fingerprint) =
        some (fingerprint firstFile.bytes) ∧
      ¬ fingerprint firstFile.bytes = fingerprint changedFile.bytes := by
  obtain ⟨_, settled, clean, hidden⟩ := laterModel_values
  have modified : sampleWorkspace.modified? reducedTree "a.ts" = some 2000 := by decide +kernel
  have differ : ¬ fingerprint firstFile.bytes = fingerprint changedFile.bytes := by decide +kernel
  refine ⟨matching_laterModel, settled, ?_⟩
  rw [workspace_laterModel]
  exact ⟨listFiles_changed, modified, clean, read_changed, hidden, differ⟩

end Model

end CodeIndex
