import CodeIndex.Proofs.Catalog

/-!
Contract: what a look-up of a record can come to.

Owns:
- `Workspace.Unreadable`: no record can be made of a path;
- `Catalog.LookedUp`: the six things that a look-up can do, each with its reason and its outcome;
- `Catalog.getEntry_spec`: every look-up does one of them;
- `Catalog.LookedUp.current`: a record that is handed out is kept and clean;
- `Catalog.LookedUp.enabled_eq`: whether files can be parsed does not change.
-/

set_option autoImplicit false

namespace CodeIndex

/-- No record can be made of a path: its language is not known, or something else than a file that
can be read is at its place. -/
def Workspace.Unreadable (workspace : Workspace) (tree : FileTree) (path : String) : Prop :=
  (Language.ofPath path).isIndexable = false ∨
    ∃ reason, workspace.read tree path = .error reason ∧ ¬ reason = .missing

namespace Record

@[simp] theorem path_ofBytes (path : String) (bytes : ByteArray) (now : Timestamp) :
    (ofBytes path bytes now).path = path := by
  dsimp only [ofBytes]
  cases Extract.ofSource? (Language.ofPath path) (Text.decodeLossy bytes) <;> rfl

@[simp] theorem fingerprint_ofBytes (path : String) (bytes : ByteArray) (now : Timestamp) :
    (ofBytes path bytes now).fingerprint = CodeIndex.fingerprint bytes := by
  dsimp only [ofBytes]
  cases Extract.ofSource? (Language.ofPath path) (Text.decodeLossy bytes) <;> rfl

theorem ofBytes_with_lastIndexed (path : String) (bytes : ByteArray) (now later : Timestamp) :
    { ofBytes path bytes now with lastIndexed := later } = ofBytes path bytes later := by
  dsimp only [ofBytes]
  cases Extract.ofSource? (Language.ofPath path) (Text.decodeLossy bytes) <;> rfl

end Record

namespace Catalog

/-- What a look-up can do: nothing, because no file can be parsed; nothing, because the record is
clean; nothing, because the file has to be read and cannot be; set the time of the record; make a
new one; or forget the file. -/
inductive LookedUp (workspace : Workspace) (tree : FileTree) (path : String) (now : Timestamp)
    (before : Catalog) : Outcome → Catalog → Prop where
  | disabled (off : before.enabled = false) :
      LookedUp workspace tree path now before .absent before
  | cached (record : Record) (clean : before.isStale path = false)
      (found : before.records[path]? = some record) :
      LookedUp workspace tree path now before (.cached record) before
  | absent (pending : before.isStale path = true ∨ before.records[path]? = none)
      (unreadable : workspace.Unreadable tree path) :
      LookedUp workspace tree path now before .absent before
  | refreshed (bytes : ByteArray) (old : Record) (read : workspace.read tree path = .ok bytes)
      (found : before.records[path]? = some old) (same : old.fingerprint = fingerprint bytes) :
      LookedUp workspace tree path now before (.refreshed { old with lastIndexed := now })
        (before.refreshRecord path old now).2
  | reindexed (bytes : ByteArray) (read : workspace.read tree path = .ok bytes)
      (differs : ∀ old, before.records[path]? = some old →
        ¬ old.fingerprint = fingerprint bytes) :
      LookedUp workspace tree path now before
        (.reindexed (Record.ofBytes path bytes now)
          (before.replace (Record.ofBytes path bytes now)).1)
        (before.replace (Record.ofBytes path bytes now)).2
  | removed (missing : workspace.read tree path = .error .missing) :
      LookedUp workspace tree path now before (.removed (before.removeFile path).1)
        (before.removeFile path).2

section LookedUp

variable (catalog : Catalog) (workspace : Workspace) (tree : FileTree) (path : String)
  (now : Timestamp)

/-- A catalog that is not enabled gives nothing, whatever it keeps. -/
theorem getEntry_of_disabled (off : catalog.enabled = false) :
    catalog.getEntry workspace tree path now = (.absent, catalog) := by
  simp [getEntry, off]

theorem enabled_of_carried {record : Record}
    (carried : (catalog.getEntry workspace tree path now).1.record? = some record) :
    catalog.enabled = true := by
  cases on : catalog.enabled with
  | true => rfl
  | false =>
      rw [catalog.getEntry_of_disabled workspace tree path now on] at carried
      exact absurd carried (by simp [Outcome.record?])

/-- A clean record is handed out, and no file is read. -/
theorem getEntry_of_clean (on : catalog.enabled = true) {record : Record}
    (clean : catalog.isStale path = false) (found : catalog.records[path]? = some record) :
    catalog.getEntry workspace tree path now = (.cached record, catalog) := by
  simp [getEntry, on, clean, found]

/-- A file that has to be read is taken in as it was read, if its language is known. -/
theorem getEntry_of_pending (on : catalog.enabled = true)
    (pending : catalog.isStale path = true ∨ catalog.records[path]? = none) :
    catalog.getEntry workspace tree path now =
      if (Language.ofPath path).isIndexable then
        catalog.absorb path (workspace.read tree path) now
      else (.absent, catalog) := by
  unfold getEntry
  rcases pending with stale | unknown
  · simp [on, stale]
  · simp [on, unknown]

/-- Nothing comes of a file that has to be read and cannot be. -/
theorem getEntry_of_unreadable
    (pending : catalog.isStale path = true ∨ catalog.records[path]? = none)
    (unreadable : workspace.Unreadable tree path) :
    catalog.getEntry workspace tree path now = (.absent, catalog) := by
  cases on : catalog.enabled with
  | false => exact getEntry_of_disabled catalog workspace tree path now on
  | true =>
      rw [getEntry_of_pending catalog workspace tree path now on pending]
      rcases unreadable with foreign | ⟨reason, failed, present⟩
      · simp [foreign]
      · rw [failed]
        split
        · cases reason with
          | missing => exact absurd rfl present
          | tooLarge limit => rfl
          | unreadable => rfl
        · rfl

/-- What was read is taken in as one of the four things that are done with a file. -/
theorem lookedUp_absorb
    (pending : catalog.isStale path = true ∨ catalog.records[path]? = none) :
    LookedUp workspace tree path now catalog
      (catalog.absorb path (workspace.read tree path) now).1
      (catalog.absorb path (workspace.read tree path) now).2 := by
  cases read : workspace.read tree path with
  | ok bytes =>
      unfold absorb absorbBytes
      cases found : catalog.records[path]? with
      | none => exact .reindexed bytes read (by simp [found])
      | some old =>
          by_cases same : old.fingerprint = fingerprint bytes
          · simp only [same, if_true]
            exact .refreshed bytes old read found same
          · simp only [same, if_false]
            exact .reindexed bytes read (by simpa [found] using same)
  | error reason =>
      cases reason with
      | missing => exact .removed read
      | tooLarge limit => exact .absent pending (Or.inr ⟨_, read, by simp⟩)
      | unreadable => exact .absent pending (Or.inr ⟨_, read, by simp⟩)

/-- Every look-up does one of the six things. -/
theorem getEntry_spec :
    LookedUp workspace tree path now catalog (catalog.getEntry workspace tree path now).1
      (catalog.getEntry workspace tree path now).2 := by
  cases on : catalog.enabled with
  | false =>
      rw [catalog.getEntry_of_disabled workspace tree path now on]
      exact .disabled on
  | true =>
      by_cases pending : catalog.isStale path = true ∨ catalog.records[path]? = none
      · rw [getEntry_of_pending catalog workspace tree path now on pending]
        split
        · exact catalog.lookedUp_absorb workspace tree path now pending
        · next foreign => exact .absent pending (Or.inl (Bool.not_eq_true _ ▸ foreign))
      · simp only [not_or, Bool.not_eq_true] at pending
        obtain ⟨record, found⟩ := Option.ne_none_iff_exists'.mp pending.2
        rw [catalog.getEntry_of_clean workspace tree path now on pending.1 found]
        exact .cached record pending.1 found

end LookedUp

theorem Sets.isStale_eq_false {path : String} {record : Record} {before after : Catalog}
    (sets : Sets path (some record) before after) : after.isStale path = false :=
  (Staleness.isStale_eq_false _ path).mpr ⟨sets.clean, sets.selfClean.mpr rfl⟩

/-- The outcome of a look-up that carries a record tells that the path is clean now and has that
record. -/
theorem LookedUp.current {workspace : Workspace} {tree : FileTree} {path : String}
    {now : Timestamp} {before after : Catalog} {outcome : Outcome} {record : Record}
    (looked : LookedUp workspace tree path now before outcome after)
    (carried : outcome.record? = some record) :
    after.records[path]? = some record ∧ after.isStale path = false := by
  cases looked with
  | disabled _ => exact absurd carried (by simp [Outcome.record?])
  | cached kept clean found =>
      obtain rfl := Option.some.inj carried
      exact ⟨found, clean⟩
  | absent _ _ => exact absurd carried (by simp [Outcome.record?])
  | refreshed bytes old read found same =>
      obtain rfl := Option.some.inj carried
      have sets := (spreads_refreshRecord found now).sets
      exact ⟨sets.self, sets.isStale_eq_false⟩
  | reindexed bytes read differs =>
      obtain rfl := Option.some.inj carried
      have sets := (spreads_replace before (Record.ofBytes path bytes now)).sets
      rw [Record.path_ofBytes] at sets
      exact ⟨sets.self, sets.isStale_eq_false⟩
  | removed missing => exact absurd carried (by simp [Outcome.record?])

theorem LookedUp.enabled_eq {workspace : Workspace} {tree : FileTree} {path : String}
    {now : Timestamp} {before after : Catalog} {outcome : Outcome}
    (looked : LookedUp workspace tree path now before outcome after) :
    after.enabled = before.enabled := by
  cases looked with
  | disabled _ => rfl
  | cached _ _ _ => rfl
  | absent _ _ => rfl
  | refreshed _ _ _ _ _ => rfl
  | reindexed _ _ _ => exact (sets_replace before _).enabled
  | removed _ => exact (sets_removeFile before path).enabled

end Catalog

end CodeIndex
