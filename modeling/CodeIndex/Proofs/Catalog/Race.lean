import CodeIndex.Proofs.Catalog.Reconcile
import CodeIndex.Proofs.Model.Refresh
import CodeIndex.Proofs.Workspace

/-!
Contract: a record looked up while its file is being written.

Owns:
- `Race`: a file, a clock, a catalog, and how far a look-up has got;
- `Race.run`: any interleaving of the steps of the look-up with writes and the passing of time;
- `Race.catalog_run_undisturbed`: without writes, the steps are those of `Catalog.getEntry`;
- `Race.Sound`: what every step keeps;
- `Race.noticed_iff_later`: which writes a later comparison with the files notices.

The time at which a record counts as clean is taken after the bytes have been read. A write between
the two, or in the millisecond of the second, has a time at which the record counts as clean, and is
lost: `Race.write_before_clock_is_lost`. Only writes of later milliseconds are noticed.
-/

set_option autoImplicit false

namespace CodeIndex

/-- The bytes of a file that was found. -/
def Workspace.readFile (workspace : Workspace) (file : File) :
    Except Workspace.ReadError ByteArray :=
  if file.bytes.size ≤ workspace.maxFileSize then .ok file.bytes
  else .error (.tooLarge workspace.maxFileSize)

theorem Workspace.read_of_fileAt? {workspace : Workspace} {tree : FileTree} {path : String}
    {file : File} (found : workspace.fileAt? tree path = some file) :
    workspace.read tree path = workspace.readFile file := by
  unfold fileAt? at found
  unfold read readFile
  split at found
  · next isFile =>
      rw [isFile, Option.some.inj found]
  · exact absurd found (by simp)

namespace Catalog

variable (catalog : Catalog) (path : String)

/-- A record that is there and clean is left alone, and so is every record if no file can be parsed;
otherwise the file is read, if its language is known. -/
theorem snd_getEntry (workspace : Workspace) (tree : FileTree) (now : Timestamp) :
    (catalog.getEntry workspace tree path now).2 =
      if catalog.enabled = false ∨
          (catalog.isStale path = false ∧ catalog.records[path]?.isSome) then catalog
      else if (Language.ofPath path).isIndexable then
        (catalog.absorb path (workspace.read tree path) now).2
      else catalog := by
  unfold getEntry
  cases catalog.enabled <;> cases catalog.isStale path <;> cases catalog.records[path]? <;>
    cases (Language.ofPath path).isIndexable <;> rfl

/-- A file whose bytes were taken in is clean from then on. -/
theorem staleness_absorbBytes (bytes : ByteArray) (now : Timestamp) :
    (catalog.absorbBytes path bytes now).2.staleness.lastClean[path]? = some now ∧
      ¬ path ∈ (catalog.absorbBytes path bytes now).2.staleness.dirty := by
  have reindexed : (catalog.reindexRecord path bytes now).2.staleness.lastClean[path]? = some now ∧
      ¬ path ∈ (catalog.reindexRecord path bytes now).2.staleness.dirty := by
    have sets := sets_replace catalog (Record.ofBytes path bytes now)
    rw [Record.path_ofBytes] at sets
    refine ⟨?_, sets.clean⟩
    have time : (Record.ofBytes path bytes now).lastIndexed = now := by
      rw [← Record.ofBytes_with_lastIndexed path bytes now now]
    have marked : (catalog.replaced (Record.ofBytes path bytes now)).staleness.lastClean[path]? =
        some now := by
      simp [replaced, Staleness.markClean, time]
    unfold reindexRecord
    dsimp only
    rcases replace_eq catalog (Record.ofBytes path bytes now) with unmarked | ⟨_, spread⟩
    · rw [unmarked, marked]
    · rw [spread, markImporters_eq, Staleness.lastClean_foldl_markDirty, marked]
  unfold absorbBytes
  split
  · split
    · next old _ _ =>
        refine ⟨?_, (sets_refreshRecord catalog path old now).clean⟩
        simp [refreshRecord, Staleness.markClean]
    · exact reindexed
  · exact reindexed

/-- If no file is gone, a file is stale if it was before, or if it is listed with a time at which it
was not clean yet. -/
theorem mem_dirty_reconcile_of_all_there {files : List (String × Timestamp)}
    (allThere : (catalog.reconcile files).1 = []) :
    path ∈ (catalog.reconcile files).2.staleness.dirty ↔ path ∈ catalog.staleness.dirty ∨
      ∃ time, (path, time) ∈ files ∧
        ∀ clean, catalog.staleness.lastClean[path]? = some clean → ¬ time ≤ clean := by
  have present : ¬ path ∈ catalog.staleness.vanished files := by
    intro gone
    have listed := (mem_gone catalog files path).mpr
      (((Staleness.mem_vanished _ _ _).mp gone).imp_left Or.inl)
    rw [allThere] at listed
    exact List.not_mem_nil listed
  rw [← Staleness.mem_dirty_reconcile_of_present _ _ _ present]
  unfold reconcile at allThere ⊢
  dsimp only at allThere ⊢
  rw [allThere]
  rfl

end Catalog

/-! ## Races -/

/-- How far a look-up has got. -/
inductive Progress where
  /-- It has not begun. -/
  | waiting
  /-- The bytes have been read, at the given time. -/
  | read (bytes : ByteArray) (since : Timestamp)
  /-- The time has been taken that the record will have. -/
  | timed (bytes : ByteArray) (since now : Timestamp)
  /-- The record has that time, and the file counts as clean. -/
  | installed (bytes : ByteArray) (since now : Timestamp)
  /-- There were no bytes to take in. -/
  | ended

/-- A look-up of a file's record, while the file may be written. -/
structure Race where
  clock : Timestamp
  /-- The file as it is now. -/
  file : File
  catalog : Catalog
  progress : Progress := .waiting

namespace Race

/-- What happens next. -/
inductive Action where
  /-- Time passes. -/
  | wait (time : Timestamp)
  /-- The file gets other bytes. -/
  | write (bytes : ByteArray)
  /-- The look-up takes its next step. -/
  | proceed

/-- The next step of a look-up. -/
def proceed (workspace : Workspace) (path : String) (race : Race) : Race :=
  match race.progress with
  | .waiting =>
      if race.catalog.enabled = false ∨
          (race.catalog.isStale path = false ∧ race.catalog.records[path]?.isSome) then
        { race with progress := .ended }
      else if (Language.ofPath path).isIndexable then
        match workspace.readFile race.file with
        | .ok bytes => { race with progress := .read bytes race.clock }
        | .error _ => { race with progress := .ended }
      else
        { race with progress := .ended }
  | .read bytes since => { race with progress := .timed bytes since race.clock }
  | .timed bytes since now =>
      { race with
        catalog := (race.catalog.absorbBytes path bytes now).2
        progress := .installed bytes since now }
  | .installed _ _ _ => race
  | .ended => race

/-- One action. The clock never goes back, and a file that is written has the time of the clock. -/
def step (workspace : Workspace) (path : String) (race : Race) : Action → Race
  | .wait time => { race with clock := if race.clock ≤ time then time else race.clock }
  | .write bytes => { race with file := { bytes := bytes, modified := race.clock } }
  | .proceed => race.proceed workspace path

/-- Actions one after the other. -/
def run (workspace : Workspace) (path : String) (race : Race) (actions : List Action) : Race :=
  actions.foldl (step workspace path) race

/-- A look-up that is not disturbed does what it does at once. -/
theorem catalog_run_undisturbed {workspace : Workspace} {path : String} {tree : FileTree}
    {race : Race} (waiting : race.progress = .waiting)
    (found : workspace.fileAt? tree path = some race.file) {now : Timestamp}
    (later : race.clock ≤ now) :
    (race.run workspace path [.proceed, .wait now, .proceed, .proceed]).catalog =
      (race.catalog.getEntry workspace tree path now).2 := by
  have ended : ∀ race : Race, race.progress = .ended →
      (race.run workspace path [.wait now, .proceed, .proceed]).catalog = race.catalog := by
    intro race isEnded
    simp [run, step, proceed, isEnded]
  rw [Catalog.snd_getEntry, Workspace.read_of_fileAt? found, run, List.foldl_cons, ← run, step,
    proceed, waiting]
  dsimp only
  split
  · exact ended _ rfl
  · split
    · unfold Workspace.readFile
      by_cases small : race.file.bytes.size ≤ workspace.maxFileSize
      · simp [run, step, proceed, later, small, Catalog.absorb]
      · rw [if_neg small]
        exact ended _ rfl
    · exact ended _ rfl

/-! ## What every step keeps -/

/-- A file still holds the bytes that were read at a time, or was written since. -/
def Followed (race : Race) (bytes : ByteArray) (since : Timestamp) : Prop :=
  race.file.bytes = bytes ∨ (since ≤ race.file.modified ∧ race.file.modified ≤ race.clock)

/-- The times of a look-up are in order, the file is as it was read or was written later, and a
record that is installed made the file clean at the time that was taken. -/
def Sound (path : String) (race : Race) : Prop :=
  match race.progress with
  | .waiting => True
  | .read bytes since => since ≤ race.clock ∧ race.Followed bytes since
  | .timed bytes since now => since ≤ now ∧ now ≤ race.clock ∧ race.Followed bytes since
  | .installed bytes since now =>
      since ≤ now ∧ now ≤ race.clock ∧ race.Followed bytes since ∧
        race.catalog.staleness.lastClean[path]? = some now ∧
        ¬ path ∈ race.catalog.staleness.dirty
  | .ended => True

theorem Sound.wait {path : String} {race : Race} (sound : race.Sound path) {clock : Timestamp}
    (later : race.clock ≤ clock) : Sound path { race with clock := clock } := by
  have followed : ∀ bytes since, race.Followed bytes since →
      Followed { race with clock := clock } bytes since := fun bytes since =>
    Or.imp_right (And.imp_right fun before => Int64.le_trans before later)
  unfold Sound at sound ⊢
  cases state : race.progress with
  | waiting => trivial
  | ended => trivial
  | read bytes since =>
      rw [state] at sound
      exact ⟨Int64.le_trans sound.1 later, followed bytes since sound.2⟩
  | timed bytes since now =>
      rw [state] at sound
      exact ⟨sound.1, Int64.le_trans sound.2.1 later, followed bytes since sound.2.2⟩
  | installed bytes since now =>
      rw [state] at sound
      exact ⟨sound.1, Int64.le_trans sound.2.1 later, followed bytes since sound.2.2.1,
        sound.2.2.2⟩

theorem Sound.write {path : String} {race : Race} (sound : race.Sound path) (bytes : ByteArray) :
    Sound path { race with file := { bytes := bytes, modified := race.clock } } := by
  have followed : ∀ bytesRead since, since ≤ race.clock →
      Followed { race with file := { bytes := bytes, modified := race.clock } } bytesRead since :=
    fun _ _ earlier => Or.inr ⟨earlier, Int64.le_refl _⟩
  unfold Sound at sound ⊢
  cases state : race.progress with
  | waiting => trivial
  | ended => trivial
  | read bytesRead since =>
      rw [state] at sound
      exact ⟨sound.1, followed bytesRead since sound.1⟩
  | timed bytesRead since now =>
      rw [state] at sound
      exact ⟨sound.1, sound.2.1, followed bytesRead since (Int64.le_trans sound.1 sound.2.1)⟩
  | installed bytesRead since now =>
      rw [state] at sound
      exact ⟨sound.1, sound.2.1, followed bytesRead since (Int64.le_trans sound.1 sound.2.1),
        sound.2.2.2⟩

theorem bytes_of_readFile {workspace : Workspace} {file : File} {bytes : ByteArray}
    (isRead : workspace.readFile file = .ok bytes) : file.bytes = bytes := by
  unfold Workspace.readFile at isRead
  split at isRead
  · exact Except.ok.inj isRead
  · exact absurd isRead (by simp)

theorem Sound.proceed {path : String} {race : Race} (sound : race.Sound path)
    (workspace : Workspace) : Sound path (race.proceed workspace path) := by
  unfold Race.proceed
  cases state : race.progress with
  | waiting =>
      dsimp only
      split
      · trivial
      · split
        · split
          · next bytes isRead =>
              exact ⟨Int64.le_refl _, Or.inl (bytes_of_readFile isRead)⟩
          · trivial
        · trivial
  | read bytes since =>
      rw [Sound, state] at sound
      exact ⟨sound.1, Int64.le_refl _, sound.2⟩
  | timed bytes since now =>
      rw [Sound, state] at sound
      exact ⟨sound.1, sound.2.1, sound.2.2,
        Catalog.staleness_absorbBytes race.catalog path bytes now⟩
  | installed bytes since now => exact sound
  | ended => exact sound

theorem Sound.step {path : String} {race : Race} (sound : race.Sound path) (workspace : Workspace)
    (action : Action) : Sound path (race.step workspace path action) := by
  cases action with
  | wait time =>
      apply sound.wait
      split
      · next later => exact later
      · exact Int64.le_refl _
  | write bytes => exact sound.write bytes
  | proceed => exact sound.proceed workspace

theorem Sound.run {path : String} {race : Race} (sound : race.Sound path) (workspace : Workspace)
    (actions : List Action) : Sound path (race.run workspace path actions) :=
  List.foldlRecOn (motive := Sound path) actions _ sound
    fun _ reached action _ => reached.step workspace action

/-! ## Which writes are noticed -/

/-- Whatever a look-up and the writer of its file did one after the other: if the file now holds
other bytes than were read, it was written since then. A comparison with the files finds it stale if
the time of that write is later than the one at which the record counts as clean, and, as long as no
file is gone, only then. -/
theorem noticed_iff_later (workspace : Workspace) (path : String) {start : Race}
    (waiting : start.progress = .waiting) (actions : List Action) {bytes : ByteArray}
    {since now : Timestamp}
    (installed : (start.run workspace path actions).progress = .installed bytes since now)
    (changed : ¬ (start.run workspace path actions).file.bytes = bytes) :
    let race := start.run workspace path actions
    since ≤ now ∧ since ≤ race.file.modified ∧ race.file.modified ≤ race.clock ∧
      ∀ files : List (String × Timestamp), (path, race.file.modified) ∈ files →
        (now < race.file.modified → path ∈ (race.catalog.reconcile files).2.listStale) ∧
        ((∀ time, (path, time) ∈ files → time = race.file.modified) →
          (race.catalog.reconcile files).1 = [] →
          path ∈ (race.catalog.reconcile files).2.listStale → now < race.file.modified) := by
  intro race
  have sound : race.Sound path := by
    apply Sound.run
    rw [Sound, waiting]
    trivial
  rw [Sound, installed] at sound
  obtain ⟨inOrder, _, followed, clean, unmarked⟩ := sound
  obtain ⟨after, upToNow⟩ := followed.resolve_left changed
  refine ⟨inOrder, after, upToNow, fun files listed => ⟨?_, ?_⟩⟩
  · intro late
    apply (Staleness.mem_listStale _ _).mpr
    apply Catalog.mem_dirty_reconcile _ _ _ listed
    intro time known
    rw [← Option.some.inj (clean.symm.trans known)]
    exact Int64.not_le.mpr late
  · intro current allThere stale
    rw [Catalog.listStale, Staleness.mem_listStale,
      Catalog.mem_dirty_reconcile_of_all_there _ _ allThere] at stale
    obtain ⟨time, inFiles, late⟩ := stale.resolve_left unmarked
    rw [current time inFiles] at late
    exact Int64.not_le.mp (late now clean)

/-! ## A file written twice -/

def sampleRace : Race :=
  { clock := 1500
    file := { bytes := "export function f() \x7b\x7d\n".toUTF8, modified := 1000 }
    catalog := .empty }

def sampleWriter : Workspace :=
  { root := "/p", includes := [], excludes := [], maxFileSize := 1000 }

/-- What the file holds later. -/
def writtenBytes : ByteArray :=
  "export function g() \x7b\x7d\n".toUTF8

/-- The file is written a millisecond after the time was taken. -/
def writtenAfterwards : Race :=
  sampleRace.run sampleWriter "a.ts"
    [.proceed, .wait 2000, .proceed, .proceed, .wait 2001, .write writtenBytes]

/-- The file is written after it was read and before the time is taken. -/
def writtenMeanwhile : Race :=
  sampleRace.run sampleWriter "a.ts"
    [.proceed, .wait 2000, .write writtenBytes, .wait 2500, .proceed, .proceed]

theorem progress_writtenAfterwards :
    writtenAfterwards.progress = .installed sampleRace.file.bytes 1500 2000 := by
  rfl

theorem writtenAfterwards_is_noticed :
    sampleRace.progress = .waiting ∧
      ¬ writtenAfterwards.file.bytes = sampleRace.file.bytes ∧
      "a.ts" ∈ (writtenAfterwards.catalog.reconcile [("a.ts", 2001)]).2.listStale := by
  have changed : ¬ writtenAfterwards.file.bytes = sampleRace.file.bytes := by decide
  refine ⟨rfl, changed, ?_⟩
  exact ((noticed_iff_later sampleWriter "a.ts" rfl _ progress_writtenAfterwards changed).2.2.2
    [("a.ts", 2001)] List.mem_cons_self).1 (by decide)

/-- A write between the reading and the clock is lost: the record is of the earlier bytes, and the
file does not count as stale. -/
theorem write_before_clock_is_lost :
    writtenMeanwhile.file.bytes = writtenBytes ∧ writtenMeanwhile.file.modified = 2000 ∧
      ¬ writtenMeanwhile.file.bytes = sampleRace.file.bytes ∧
      (writtenMeanwhile.catalog.records["a.ts"]?.map (·.fingerprint)) =
        some (fingerprint sampleRace.file.bytes) ∧
      (writtenMeanwhile.catalog.reconcile [("a.ts", 2000)]).2.listStale = [] ∧
      (writtenMeanwhile.catalog.reconcile [("a.ts", 2000)]).2.isStale "a.ts" = false := by
  decide +kernel

end Race

end CodeIndex
