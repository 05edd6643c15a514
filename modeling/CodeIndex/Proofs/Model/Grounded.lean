import CodeIndex.Proofs.Model.Confluence

/-!
Contract: files that can be read tell what a run comes to.

Owns:
- `Model.Grounded`: whatever is known of can be read, and what is not stale is as the files are;
- `Model.Grounded.listStale_reindex`: a run leaves nothing stale;
- `Model.Grounded.undatedAt_reindex`: after a run, the files that were known of tell the records.

A run gets to the stale files and to importers of files that changed. What it does not get to is as
its file is already.
-/

set_option autoImplicit false

namespace CodeIndex

namespace Model

theorem readable_of_read {model : Model} {tree : FileTree} {path : String}
    (on : model.catalog.enabled = true) (indexable : (Language.ofPath path).isIndexable = true)
    (read : (∃ bytes, model.workspace.read tree path = .ok bytes) ∨
      model.workspace.read tree path = .error .missing) : ¬ model.Unreadable tree path := by
  rintro (off | foreign | ⟨reason, failed, present⟩)
  · rw [on] at off
    exact absurd off (by simp)
  · rw [indexable] at foreign
    exact absurd foreign (by simp)
  · rcases read with ⟨bytes, there⟩ | missing
    · rw [there] at failed
      exact absurd failed (by simp)
    · rw [missing, Except.error.injEq] at failed
      exact present failed.symm

/-- Whatever a model knows of can be read or is gone. A record with the fingerprint of its file was
made of it, and a record that is not stale has it. -/
structure Grounded (tree : FileTree) (model : Model) : Prop where
  readable : ∀ path, model.catalog.Knows path → ¬ model.Unreadable tree path
  made : ∀ (path : String) (record : Record) (found : ByteArray),
    model.catalog.records[path]? = some record → model.workspace.read tree path = .ok found →
    record.fingerprint = fingerprint found → record.undated = Record.ofBytes path found 0
  clean : ∀ (path : String) (record : Record), model.catalog.records[path]? = some record →
    path ∈ model.catalog.staleness.dirty ∨
      ∃ found, model.workspace.read tree path = .ok found ∧
        record.fingerprint = fingerprint found

theorem knows_of_reaches {start : Model} {tree : FileTree} {path : String}
    (exact : start.catalog.Exact) (reaches : start.Reaches tree path) :
    start.catalog.Knows path := by
  cases reaches with
  | stale dirty => exact Or.inl dirty
  | spread _ _ _ importer =>
      exact Or.inr ((Catalog.mem_records_iff _ _).mpr
        (exact.coherent.isSome_of_mem_importersOf importer))

namespace Grounded

variable {tree : FileTree} {model : Model} (grounded : Grounded tree model)

include grounded

/-- A file gets the record that it would get if there was none before. -/
theorem renewedAt_eq (path : String) :
    model.renewedAt tree path = model.workspace.renewal tree path 0 none := by
  unfold renewedAt
  cases read : model.workspace.read tree path with
  | error reason => rw [Workspace.renewal_of_error read, Workspace.renewal_of_error read]
  | ok found =>
      have fresh : model.workspace.renewal tree path 0 none = some (Record.ofBytes path found 0) :=
        Workspace.renewal_of_differs read (by simp) 0
      rw [fresh]
      cases recorded : model.catalog.records[path]? with
      | none =>
          rw [undatedAt, recorded, Option.map_none, fresh]
      | some record =>
          rw [undatedAt, recorded, Option.map_some]
          by_cases same : record.fingerprint = fingerprint found
          · rw [grounded.made path record found recorded read same,
              Workspace.renewal_of_same read (Record.fingerprint_ofBytes path found 0),
              Record.ofBytes_with_lastIndexed]
          · exact Workspace.renewal_of_differs read (by simpa [Record.undated] using same) 0

variable (exact : model.catalog.Exact) (now : Timestamp)

include exact

/-- A run leaves nothing stale. -/
theorem listStale_reindex :
    (model.reindex { tree := tree, now := now }).2.catalog.listStale = [] := by
  apply List.eq_nil_iff_forall_not_mem.mpr
  intro path listed
  have dirty := (Staleness.mem_listStale _ path).mp listed
  have partway := (Partway.refl exact tree).reindex exact { tree := tree, now := now }
  have known := knows_of_reaches exact (partway.stale path dirty)
  exact grounded.readable path known (unreadable_of_dirty_reindex dirty)

/-- After a run there are records of the files that were known of, as they are, and no others. -/
theorem undatedAt_reindex (path : String) :
    (model.catalog.Knows path →
      (model.reindex { tree := tree, now := now }).2.undatedAt path =
        model.workspace.renewal tree path 0 none) ∧
    (¬ model.catalog.Knows path →
      (model.reindex { tree := tree, now := now }).2.undatedAt path = none) := by
  have partway := (Partway.refl exact tree).reindex exact { tree := tree, now := now }
  have done : ∀ path ∈ (model.reindex { tree := tree, now := now }).2.catalog.staleness.dirty,
      model.Unreadable tree path := fun path => unreadable_of_dirty_reindex
  constructor
  · intro knows
    by_cases reaches : model.Reaches tree path
    · rw [partway.undatedAt_of_reaches done reaches (grounded.readable path knows),
        grounded.renewedAt_eq]
    · -- The path is clean, and so its record is that of the file already.
      rw [partway.undatedAt_of_not_reaches fun both => reaches both.1]
      have fresh : ¬ path ∈ model.catalog.staleness.dirty := fun dirty => reaches (.stale dirty)
      obtain ⟨record, recorded⟩ := Option.isSome_iff_exists.mp
        ((Catalog.mem_records_iff _ _).mp (knows.resolve_left fresh))
      obtain ⟨found, read, same⟩ := (grounded.clean path record recorded).resolve_left fresh
      rw [undatedAt, recorded, Option.map_some,
        grounded.made path record found recorded read same,
        Workspace.renewal_of_differs read (by simp)]
  · intro unknown
    have unreached : ¬ model.Reaches tree path :=
      fun reaches => unknown (knows_of_reaches exact reaches)
    rw [partway.undatedAt_of_not_reaches fun both => unreached both.1, undatedAt,
      Option.map_eq_none_iff, ← Option.not_isSome_iff_eq_none, ← Catalog.mem_records_iff]
    exact fun recorded => unknown (Or.inr recorded)

end Grounded

end Model

end CodeIndex
