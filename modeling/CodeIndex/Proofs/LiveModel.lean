import CodeIndex.Proofs.Model.Views
import CodeIndex.Proofs.Workspace

/-!
Contract: a model beside the files it follows.

Owns:
- `LiveModel`: files and a model of them, with the steps that both go through together;
- `LiveModel.Tracks`: whatever is not stale is in step with its file;
- `LiveModel.Tracks.step`, `LiveModel.Run.tracks`: every step and every run keeps that.

Does not own: what a model is compared with.
-/

set_option autoImplicit false

namespace CodeIndex

namespace Workspace

/-- A file to be indexed is at a path, which is in normal form. -/
structure Admits (workspace : Workspace) (tree : FileTree) (path : String) (file : File) :
    Prop where
  normal : workspace.relative? path = some path
  indexable : workspace.isIndexable path = true
  found : workspace.fileAt? tree path = some file

end Workspace

namespace Model

/-- Without kept state, a model has no records, and all listed files are stale. -/
theorem ofState_empty (workspace : Workspace) (config : Config) (tree : FileTree) :
    ofState workspace config {} tree =
      { empty workspace config with
        catalog :=
          { staleness :=
              ((empty workspace config).listing tree).foldl Staleness.noteFile {} } } := by
  have nothing : Catalog.ofState ∅ (.ofEntries ∅) = .empty := rfl
  have quiet : ∀ files, Catalog.empty.reconcile files =
      ([], { staleness := files.foldl Staleness.noteFile {} }) := fun _ => rfl
  unfold ofState reconcile
  simp only [nothing, quiet, List.foldl_nil]
  rfl

end Model

/-! ## Files and a model -/

/-- Files, and a model of them. -/
structure LiveModel where
  tree : FileTree
  model : Model

namespace LiveModel

/-- A model opened without kept state. -/
def fresh (workspace : Workspace) (config : Config) (tree : FileTree) : LiveModel :=
  { tree := tree, model := Model.ofState workspace config {} tree }

/-- The model after a run over all stale files that is not cancelled. -/
def reindexed (live : LiveModel) (now : Timestamp) : Model :=
  (live.model.reindex { tree := live.tree, now := now }).2

/-- One step: a file is written or deleted, and that is reported; a run over the stale files, which
may be cancelled; or one file is asked for. Files are named by paths in normal form. -/
inductive Step (workspace : Workspace) (before : LiveModel) : LiveModel → Prop where
  | write {path : String} {kind : EventKind} {file : File} {now : Timestamp} {tree : FileTree}
      (normal : workspace.relative? path = some path)
      (there : ¬ kind = .deleted)
      (written : before.tree.write? (workspace.absolute path) file now = some tree) :
      Step workspace before
        { tree := tree, model := before.model.apply { kind := kind, path := path } }
  | delete {path : String} {tree : FileTree}
      (normal : workspace.relative? path = some path)
      (present : workspace.hasFile before.tree path = true)
      (removed : before.tree.remove? (workspace.absolute path) = some tree) :
      Step workspace before
        { tree := tree, model := before.model.apply { kind := .deleted, path := path } }
  | reindex (now : Timestamp) (cancelled : Nat → Bool) :
      Step workspace before
        { before with
          model := (before.model.reindex
            { tree := before.tree, now := now, cancelled := cancelled }).2 }
  | get {path : String} (now : Timestamp)
      (normal : workspace.relative? path = some path)
      (indexable : workspace.isIndexable path = true) :
      Step workspace before { before with model := (before.model.getEntry before.tree path now).2 }

/-- Steps one after the other, with the files at every moment, the last one first. -/
inductive Run (workspace : Workspace) (start : LiveModel) : List FileTree → LiveModel → Prop where
  | start : Run workspace start [start.tree] start
  | step {trees : List FileTree} {before after : LiveModel}
      (earlier : Run workspace start trees before) (step : Step workspace before after) :
      Run workspace start (after.tree :: trees) after

theorem Run.mem {workspace : Workspace} {start live : LiveModel} {trees : List FileTree}
    (run : Run workspace start trees live) : start.tree ∈ trees ∧ live.tree ∈ trees := by
  induction run with
  | start => simp
  | step earlier step inductionHypothesis =>
      exact ⟨List.mem_cons_of_mem _ inductionHypothesis.1, by simp⟩

theorem Step.keeps_directories {workspace : Workspace} {before after : LiveModel}
    (step : Step workspace before after) (wellFormed : before.tree.WellFormed) (place : String)
    (directory : place ∈ before.tree.directories) : place ∈ after.tree.directories := by
  cases step with
  | write normal there written => exact (wellFormed.write? written).2.2 place directory
  | delete normal present removed =>
      obtain ⟨steps, file, found⟩ := Workspace.exists_of_hasFile present
      rw [(wellFormed.remove? found removed).2.2]
      exact directory
  | reindex now cancelled => exact directory
  | get now normal indexable => exact directory

/-! ## What stays true -/

/-- Of all contents that files ever had: their paths can be told from the keys they begin, and those
of one path from each other by their fingerprints. -/
structure Discernible (known : String → ByteArray → Prop) : Prop where
  plain : ∀ path bytes, known path bytes → Plain path
  distinct : ∀ path left right, known path left → known path right →
    fingerprint left = fingerprint right → left = right

/-- A model follows the files: records are of files that are there, and a file that is not stale
and can be read has a record of what it holds now. -/
structure Tracks (workspace : Workspace) (config : Config) (known : String → ByteArray → Prop)
    (live : LiveModel) : Prop where
  workspace_eq : live.model.workspace = workspace
  config_eq : live.model.config = config
  enabled : live.model.catalog.enabled = true
  wellFormed : live.tree.WellFormed
  files : ∀ path file, workspace.Admits live.tree path file → known path file.bytes
  coherent : live.model.catalog.Coherent
  viewed : live.model.Viewed
  recorded : ∀ (path : String) (record : Record),
    live.model.catalog.records[path]? = some record →
      (∃ file, workspace.Admits live.tree path file) ∧
        ∃ bytes now, known path bytes ∧ record = Record.ofBytes path bytes now
  stale : ∀ path ∈ live.model.catalog.staleness.dirty,
    ∃ file, workspace.Admits live.tree path file
  inStep : ∀ path file, workspace.Admits live.tree path file →
    file.bytes.size ≤ workspace.maxFileSize →
      path ∈ live.model.catalog.staleness.dirty ∨
        ∃ now, live.model.catalog.records[path]? = some (Record.ofBytes path file.bytes now)

namespace Tracks

variable {workspace : Workspace} {config : Config} {known : String → ByteArray → Prop}

/-- The general step: one path gets the record of its file, or loses it with the file. -/
theorem ofSets {before after : LiveModel} (tracks : Tracks workspace config known before)
    {path : String} {record : Option Record}
    (sets : Catalog.Sets path record before.model.catalog after.model.catalog)
    (workspace_eq : after.model.workspace = workspace) (config_eq : after.model.config = config)
    (wellFormed : after.tree.WellFormed) (coherent : after.model.catalog.Coherent)
    (viewed : after.model.Viewed)
    (others : ∀ other, workspace.relative? other = some other → ¬ path = other →
      workspace.fileAt? after.tree other = workspace.fileAt? before.tree other)
    (self : ∀ file, workspace.Admits after.tree path file → known path file.bytes ∧
      ∃ now, record = some (Record.ofBytes path file.bytes now))
    (gone : record.isSome → ∃ file, workspace.Admits after.tree path file) :
    Tracks workspace config known after := by
  have admits : ∀ other file, ¬ path = other →
      (workspace.Admits after.tree other file ↔ workspace.Admits before.tree other file) := by
    intro other file different
    constructor
    · rintro ⟨normal, indexable, found⟩
      exact ⟨normal, indexable, others other normal different ▸ found⟩
    · rintro ⟨normal, indexable, found⟩
      exact ⟨normal, indexable, (others other normal different).trans found⟩
  have recorded : ∀ (other : String) (kept : Record),
      after.model.catalog.records[other]? = some kept →
        (∃ file, workspace.Admits after.tree other file) ∧
          ∃ bytes now, known other bytes ∧ kept = Record.ofBytes other bytes now := by
    intro other kept found
    by_cases same : path = other
    · subst same
      rw [sets.self] at found
      obtain ⟨file, admitted⟩ := gone (by rw [found]; rfl)
      obtain ⟨isKnown, now, made⟩ := self file admitted
      refine ⟨⟨file, admitted⟩, file.bytes, now, isKnown, ?_⟩
      exact Option.some.inj (found.symm.trans made)
    · rw [sets.others other same] at found
      obtain ⟨⟨file, admitted⟩, made⟩ := tracks.recorded other kept found
      exact ⟨⟨file, (admits other file same).mpr admitted⟩, made⟩
  constructor
  case workspace_eq => exact workspace_eq
  case config_eq => exact config_eq
  case enabled => exact sets.enabled.trans tracks.enabled
  case wellFormed => exact wellFormed
  case coherent => exact coherent
  case viewed => exact viewed
  case recorded => exact recorded
  case files =>
    intro other file admitted
    by_cases same : path = other
    · subst same
      exact (self file admitted).1
    · exact tracks.files other file ((admits other file same).mp admitted)
  case stale =>
    intro other dirty
    by_cases same : path = other
    · subst same
      exact absurd dirty sets.clean
    · rcases sets.marked other dirty with already | ⟨_, importer⟩
      · obtain ⟨file, admitted⟩ := tracks.stale other already
        exact ⟨file, (admits other file same).mpr admitted⟩
      · obtain ⟨kept, found⟩ :=
          Option.isSome_iff_exists.mp (coherent.isSome_of_mem_importersOf importer)
        exact (recorded other kept found).1
  case inStep =>
    intro other file admitted small
    by_cases same : path = other
    · subst same
      obtain ⟨_, now, made⟩ := self file admitted
      exact Or.inr ⟨now, sets.self.trans made⟩
    · rcases tracks.inStep other file ((admits other file same).mp admitted) small with
        dirty | ⟨now, found⟩
      · exact Or.inl (sets.kept other same dirty)
      · exact Or.inr ⟨now, (sets.others other same).trans found⟩

/-- Bringing one file up to date, stale or not. -/
theorem refresh {live : LiveModel} (tracks : Tracks workspace config known live)
    (discernible : Discernible known) {path : String}
    (normal : workspace.relative? path = some path)
    (indexable : workspace.isIndexable path = true) (now : Timestamp) :
    Tracks workspace config known
      { live with model := (live.model.refresh live.tree path now).2 } := by
  have readFile : ∀ bytes, live.model.workspace.read live.tree path = .ok bytes →
      ∃ file, workspace.Admits live.tree path file ∧ file.bytes = bytes := by
    intro bytes read
    rw [tracks.workspace_eq, Workspace.read_eq_ok] at read
    obtain ⟨file, found, _, same⟩ := read
    exact ⟨file, ⟨normal, indexable, found⟩, same⟩
  have viewed : (live.model.refresh live.tree path now).2.Viewed := by
    apply tracks.viewed.refresh
    intro bytes read
    obtain ⟨file, admitted, _⟩ := readFile bytes read
    exact discernible.plain path file.bytes (tracks.files path file admitted)
  have spec := live.model.refresh_spec live.tree path now
  generalize (live.model.refresh live.tree path now).1 = status at spec
  generalize (live.model.refresh live.tree path now).2 = model at spec viewed ⊢
  cases spec with
  | cached _ _ => exact tracks
  | failed _ => exact tracks
  | unchanged bytes old read found same =>
      obtain ⟨file, admitted, rfl⟩ := readFile bytes read
      obtain ⟨_, earlier, time, earlierKnown, made⟩ := tracks.recorded path old found
      have isKnown := tracks.files path file admitted
      have equal : earlier = file.bytes := by
        apply discernible.distinct path earlier file.bytes earlierKnown isKnown
        rw [← same, made, Record.fingerprint_ofBytes]
      have sets := Catalog.sets_refreshRecord live.model.catalog path old now
      have coherent := tracks.coherent.refreshRecord found now
      refine tracks.ofSets sets tracks.workspace_eq tracks.config_eq tracks.wellFormed coherent
        viewed (fun _ _ _ => rfl) ?_ ?_
      · intro other otherAdmitted
        have sameFile := Option.some.inj (otherAdmitted.found.symm.trans admitted.found)
        rw [sameFile, made, equal, Record.ofBytes_with_lastIndexed]
        exact ⟨isKnown, now, rfl⟩
      · exact fun _ => ⟨file, admitted⟩
  | indexed bytes read differs =>
      obtain ⟨file, admitted, rfl⟩ := readFile bytes read
      have sets := Catalog.sets_replace live.model.catalog (Record.ofBytes path file.bytes now)
      rw [Record.path_ofBytes] at sets
      have coherent := tracks.coherent.replace (Record.ofBytes path file.bytes now)
      refine tracks.ofSets sets tracks.workspace_eq tracks.config_eq tracks.wellFormed coherent
        viewed (fun _ _ _ => rfl) ?_ ?_
      · intro other otherAdmitted
        have sameFile := Option.some.inj (otherAdmitted.found.symm.trans admitted.found)
        rw [sameFile]
        exact ⟨tracks.files path file admitted, now, rfl⟩
      · exact fun _ => ⟨file, admitted⟩
  | removed missing =>
      rw [tracks.workspace_eq] at missing
      have nothing := Workspace.fileAt?_eq_none_of_missing missing
      have sets := Catalog.sets_removeFile live.model.catalog path
      have coherent := tracks.coherent.removeFile path
      refine tracks.ofSets sets tracks.workspace_eq tracks.config_eq tracks.wellFormed coherent
        viewed (fun _ _ _ => rfl) ?_ ?_
      · intro file admitted
        exact absurd (nothing.symm.trans admitted.found) (by simp)
      · exact fun recorded => absurd recorded (by simp)

/-- A run over the stale files, whether it is cancelled or not. -/
theorem reindex {live : LiveModel} (tracks : Tracks workspace config known live)
    (discernible : Discernible known) (now : Timestamp) (cancelled : Nat → Bool) :
    Tracks workspace config known
      { live with
        model := (live.model.reindex
          { tree := live.tree, now := now, cancelled := cancelled }).2 } := by
  apply Model.reindex_induction (P := fun model =>
    Tracks workspace config known { live with model := model }) (Q := fun path =>
      workspace.relative? path = some path ∧ workspace.isIndexable path = true) _ _ tracks
  · intro model path holds stale
    obtain ⟨file, admitted⟩ := holds.stale path ((Staleness.mem_listStale _ path).mp stale)
    exact ⟨admitted.normal, admitted.indexable⟩
  · intro model path holds wanted
    exact holds.refresh discernible wanted.1 wanted.2 now

theorem reindexed {live : LiveModel} (tracks : Tracks workspace config known live)
    (discernible : Discernible known) (now : Timestamp) :
    Tracks workspace config known { live with model := live.reindexed now } :=
  tracks.reindex discernible now fun _ => false

/-- A file is written, and that is reported. -/
theorem write {live : LiveModel} (tracks : Tracks workspace config known live)
    (rooted : workspace.Rooted) {path : String}
    (normal : workspace.relative? path = some path) {kind : EventKind} (there : ¬ kind = .deleted)
    {file : File} {now : Timestamp} {tree : FileTree}
    (written : live.tree.write? (workspace.absolute path) file now = some tree)
    (files : ∀ path file, workspace.Admits tree path file → known path file.bytes) :
    Tracks workspace config known
      { tree := tree, model := live.model.apply { kind := kind, path := path } } := by
  have viewed := tracks.viewed.apply { kind := kind, path := path }
  have fileAt : ∀ other, workspace.relative? other = some other →
      workspace.fileAt? tree other =
        if path = other then some file else workspace.fileAt? live.tree other :=
    fun other => Workspace.fileAt?_write? rooted tracks.wellFormed normal written
  have admits : ∀ other admitted, workspace.Admits tree other admitted →
      path = other ∨ workspace.Admits live.tree other admitted := by
    rintro other admitted ⟨otherNormal, indexable, found⟩
    rw [fileAt other otherNormal] at found
    by_cases same : path = other
    · exact Or.inl same
    · rw [if_neg same] at found
      exact Or.inr ⟨otherNormal, indexable, found⟩
  have keeps : ∀ other, (∃ admitted, workspace.Admits live.tree other admitted) →
      ∃ admitted, workspace.Admits tree other admitted := by
    rintro other ⟨admitted, otherNormal, indexable, found⟩
    by_cases same : path = other
    · exact ⟨file, otherNormal, indexable, (fileAt other otherNormal).trans (if_pos same)⟩
    · refine ⟨admitted, otherNormal, indexable, ?_⟩
      rw [fileAt other otherNormal, if_neg same, found]
  rw [Model.apply_of_there _ there, tracks.workspace_eq] at viewed ⊢
  constructor
  case workspace_eq => rfl
  case config_eq => exact tracks.config_eq
  case enabled => exact (Catalog.enabled_note _ _ path).trans tracks.enabled
  case wellFormed => exact (tracks.wellFormed.write? written).1
  case files => exact files
  case viewed => exact viewed
  case coherent => exact tracks.coherent.note _ path
  case recorded =>
    intro other record found
    rw [Catalog.records_note] at found
    exact (tracks.recorded other record found).imp_left (keeps other)
  case stale =>
    intro other dirty
    rcases (Catalog.mem_dirty_note _ _ path other).mp dirty with ⟨indexable, rfl⟩ | already
    · exact ⟨file, normal, indexable, (fileAt path normal).trans (if_pos rfl)⟩
    · exact keeps other (tracks.stale other already)
  case inStep =>
    intro other admitted isAdmitted small
    rw [Catalog.mem_dirty_note, Catalog.records_note]
    rcases admits other admitted isAdmitted with rfl | before
    · exact Or.inl (Or.inl ⟨isAdmitted.indexable, rfl⟩)
    · exact (tracks.inStep other admitted before small).imp_left Or.inr

/-- A file is deleted, and that is reported. -/
theorem delete {live : LiveModel} (tracks : Tracks workspace config known live)
    (rooted : workspace.Rooted) {path : String} (normal : workspace.relative? path = some path)
    (present : workspace.hasFile live.tree path = true) {tree : FileTree}
    (removed : live.tree.remove? (workspace.absolute path) = some tree) :
    Tracks workspace config known
      { tree := tree, model := live.model.apply { kind := .deleted, path := path } } := by
  obtain ⟨wellFormed, _, fileAt⟩ :=
    Workspace.fileAt?_remove? rooted tracks.wellFormed normal present removed
  have viewed := tracks.viewed.apply { kind := .deleted, path := path }
  have sets := Catalog.sets_removeFile live.model.catalog path
  have coherent := tracks.coherent.removeFile path
  refine tracks.ofSets sets tracks.workspace_eq tracks.config_eq wellFormed coherent viewed ?_ ?_ ?_
  · intro other otherNormal different
    exact (fileAt other otherNormal).trans (if_neg different)
  · intro file admitted
    have gone := (fileAt path normal).trans (if_pos rfl)
    exact absurd (gone.symm.trans admitted.found) (by simp)
  · exact fun recorded => absurd recorded (by simp)

/-- A model opened without kept state follows the files if all of them are listed. -/
theorem fresh (config : Config) (rooted : workspace.Rooted) {tree : FileTree}
    (wellFormed : tree.WellFormed)
    (files : ∀ path file, workspace.Admits tree path file → known path file.bytes)
    (listed : ∀ path file, workspace.Admits tree path file →
      file.bytes.size ≤ workspace.maxFileSize → path ∈ workspace.listFiles tree) :
    Tracks workspace config known (LiveModel.fresh workspace config tree) := by
  have dirty : ∀ path, path ∈ (((Model.empty workspace config).listing tree).foldl
      Staleness.noteFile {}).dirty ↔ path ∈ workspace.listFiles tree := by
    intro path
    rw [(Staleness.foldl_noteFile _ {} rfl).2 path]
    simp [Model.listing, Model.empty]
  unfold LiveModel.fresh
  rw [Model.ofState_empty]
  constructor
  case workspace_eq => rfl
  case config_eq => rfl
  case enabled => rfl
  case wellFormed => exact wellFormed
  case files => exact files
  case coherent =>
    have nothing := Catalog.coherent_empty true
    exact ⟨nothing.paths, nothing.importers⟩
  case viewed =>
    obtain ⟨⟨limit, graph⟩, search⟩ := Model.viewed_empty workspace config
    exact ⟨⟨limit, graph⟩, search⟩
  case recorded =>
    intro path record found
    exact absurd found (by simp)
  case stale =>
    intro path stale
    obtain ⟨normal, indexable, present⟩ :=
      Workspace.of_mem_listFiles rooted wellFormed ((dirty path).mp stale)
    obtain ⟨file, found⟩ := Option.isSome_iff_exists.mp present
    exact ⟨file, normal, indexable, found⟩
  case inStep =>
    intro path file admitted small
    exact Or.inl ((dirty path).mpr (listed path file admitted small))

/-- Every step keeps a model in step with the files. -/
theorem step {before after : LiveModel} (tracks : Tracks workspace config known before)
    (discernible : Discernible known) (rooted : workspace.Rooted)
    (step : Step workspace before after)
    (files : ∀ path file, workspace.Admits after.tree path file → known path file.bytes) :
    Tracks workspace config known after := by
  cases step with
  | write normal there written => exact tracks.write rooted normal there written files
  | delete normal present removed => exact tracks.delete rooted normal present removed
  | reindex now cancelled => exact tracks.reindex discernible now cancelled
  | get now normal indexable => exact tracks.refresh discernible normal indexable now

end Tracks

/-- A whole run keeps a model in step with the files, and takes no directory away. -/
theorem Run.tracks {workspace : Workspace} {config : Config} {known : String → ByteArray → Prop}
    (discernible : Discernible known) (rooted : workspace.Rooted) {start live : LiveModel}
    {trees : List FileTree} (run : Run workspace start trees live)
    (files : ∀ tree ∈ trees, ∀ path file, workspace.Admits tree path file → known path file.bytes)
    (tracks : Tracks workspace config known start) :
    Tracks workspace config known live ∧
      ∀ place, place ∈ start.tree.directories → place ∈ live.tree.directories := by
  induction run with
  | start => exact ⟨tracks, fun _ kept => kept⟩
  | step earlier step inductionHypothesis =>
      obtain ⟨tracksBefore, kept⟩ :=
        inductionHypothesis fun tree member => files tree (List.mem_cons_of_mem _ member)
      constructor
      · exact tracksBefore.step discernible rooted step (files _ (by simp))
      · intro place directory
        exact step.keeps_directories tracksBefore.wellFormed place (kept place directory)

end LiveModel

end CodeIndex
