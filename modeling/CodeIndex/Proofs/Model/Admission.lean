import CodeIndex.Proofs.Model.Grounded

/-!
Contract: which reported files get a record, and which of them are listed.

Owns:
- `Catalog.Vetted`: what is known of is to be indexed, or has a record that was clean once;
- `Model.vetted_reached`: every model that can be reached knows of nothing else;
- `Model.reported_file_admitted`: a reported file gets a record if it is to be indexed and not too
  large, but it is listed only if no rule passes it over.

A report asks for the language and the patterns of a path. A listing asks for the rules of the
directories above it too, and the next comparison with the files goes by the listing.
-/

set_option autoImplicit false

namespace CodeIndex

open CodeIndex.Path

/-! ## What is known of -/

namespace Catalog

/-- What a catalog knows of is allowed, or has a record that was clean once. The latter is what
comes of files that were asked for. -/
def Vetted (allowed : String → Prop) (catalog : Catalog) : Prop :=
  ∀ path, catalog.Knows path →
    allowed path ∨ (path ∈ catalog.records ∧ path ∈ catalog.staleness.lastClean)

variable {allowed : String → Prop}

theorem Sets.vetted {path : String} {record : Option Record} {before after : Catalog}
    (sets : Sets path record before after) (coherent : after.Coherent)
    (vetted : before.Vetted allowed) : after.Vetted allowed := by
  intro other knows
  rcases (sets.knows coherent other).mp knows with ⟨same, present⟩ | ⟨different, before⟩
  · subst same
    refine Or.inr ⟨?_, sets.selfClean.mpr present⟩
    rw [mem_records_iff, sets.self]
    exact present
  · refine (vetted other before).imp_right fun settled => ⟨?_, ?_⟩
    · rw [mem_records_iff, sets.others other different, ← mem_records_iff]
      exact settled.1
    · exact (sets.othersClean other different).mpr settled.2

theorem Vetted.reconcile {catalog : Catalog} (exact : catalog.Exact)
    (vetted : catalog.Vetted allowed) {files : List (String × Timestamp)}
    (listed : ∀ path ∈ files.map (·.1), allowed path) :
    (catalog.reconcile files).2.Vetted allowed := by
  intro path knows
  left
  by_cases isListed : path ∈ files.map (·.1)
  · exact listed path isListed
  · obtain ⟨already, undated⟩ := dirty_of_knows_reconcile exact isListed knows
    exact (vetted path (Or.inl already)).resolve_right fun settled => undated settled.2

end Catalog

namespace Model

theorem vetted_refresh {allowed : String → Prop} {model : Model} (exact : model.catalog.Exact)
    (vetted : model.catalog.Vetted allowed) (tree : FileTree) (path : String) (now : Timestamp) :
    (model.refresh tree path now).2.catalog.Vetted allowed := by
  rcases model.refresh_eq_self_or_spreads tree path now with same | ⟨_, spreads⟩
  · rw [same]
    exact vetted
  · exact spreads.sets.vetted (exact_refresh exact tree path now).coherent vetted

theorem vetted_perform {allowed : String → Prop} {model : Model} (exact : model.catalog.Exact)
    (vetted : model.catalog.Vetted allowed)
    (accepted : ∀ path, model.workspace.isIndexable path = true → allowed path)
    (action : Action) : (action.perform model).catalog.Vetted allowed := by
  cases action with
  | getEntry tree path now => exact vetted_refresh exact vetted tree path now
  | reindex conditions =>
      have run : (model.reindex conditions).2.catalog.Exact ∧
          (model.reindex conditions).2.catalog.Vetted allowed :=
        reindex_induction (P := fun reached => reached.catalog.Exact ∧
          reached.catalog.Vetted allowed) (Q := fun _ => True) (fun _ _ _ _ => trivial)
          (fun reached path holds _ =>
            ⟨exact_refresh holds.1 conditions.tree path conditions.now,
              vetted_refresh holds.1 holds.2 conditions.tree path conditions.now⟩)
          ⟨exact, vetted⟩
      exact run.2
  | apply event =>
      obtain ⟨kind, changed⟩ := event
      by_cases deleted : kind = .deleted
      · subst deleted
        exact (Catalog.sets_removeFile model.catalog changed).vetted
          (exact.removeFile changed).coherent vetted
      · intro path knows
        have known := (knows_apply exact { kind := kind, path := changed } path).mp knows
        rw [if_neg deleted] at known
        rcases known with ⟨_, indexable⟩ | before
        · exact Or.inl (accepted path indexable)
        · dsimp only [Action.perform]
          rw [apply_of_there model deleted]
          dsimp only
          rw [Catalog.records_note, Catalog.lastClean_note]
          exact vetted path before
  | reconcile tree =>
      dsimp only [Action.perform]
      rw [catalog_reconcile]
      apply vetted.reconcile exact
      intro path listed
      rw [mem_listing] at listed
      exact accepted path (Workspace.isIndexable_of_mem_listFiles listed)
  | reset =>
      rintro path (stale | recorded)
      · exact absurd stale Std.ExtTreeSet.not_mem_empty
      · exact absurd recorded Std.ExtTreeMap.not_mem_empty

/-- Whatever was done to a model: a path that it knows of is to be indexed, or has a record. -/
theorem vetted_reached (workspace : Workspace) (config : Config) (origin : Origin)
    (actions : List Action) :
    (reached workspace config origin actions).catalog.Vetted
      fun path => workspace.isIndexable path = true := by
  have run : (reached workspace config origin actions).workspace = workspace ∧
      (reached workspace config origin actions).catalog.Exact ∧
      (reached workspace config origin actions).catalog.Vetted
        fun path => workspace.isIndexable path = true := by
    refine List.foldlRecOn (motive := fun model : Model => model.workspace = workspace ∧
      model.catalog.Exact ∧ model.catalog.Vetted fun path => workspace.isIndexable path = true)
      actions _ ?_ ?_
    · have opened : ∀ path, origin.Brings workspace path → workspace.isIndexable path = true := by
        intro path brings
        cases origin with
        | new => exact absurd brings id
        | kept state tree => exact Workspace.isIndexable_of_mem_listFiles brings
      exact ⟨(reached_frame workspace config origin [] true).1,
        exact_reached workspace config origin [] true,
        fun path knows => Or.inl (allowed_origin opened path knows)⟩
    · rintro model ⟨same, exact, vetted⟩ action _
      refine ⟨(perform_frame model action).1.trans same, exact_perform exact action, ?_⟩
      exact vetted_perform exact vetted (fun path indexable => same ▸ indexable) action
  exact run.2.2

/-! ## Files without a record -/

/-- A run that is not cancelled makes a record of a file without one if it is stale and can be
read. No run gets to it otherwise, since it imports nothing yet. -/
theorem mem_records_reindex_of_unrecorded {model : Model} (on : model.catalog.enabled = true)
    (exact : model.catalog.Exact) {path : String} (unrecorded : ¬ path ∈ model.catalog.records)
    (tree : FileTree) (now : Timestamp) :
    path ∈ (model.reindex { tree := tree, now := now }).2.catalog.records ↔
      path ∈ model.catalog.staleness.dirty ∧ (Language.ofPath path).isIndexable = true ∧
        ∃ bytes, model.workspace.read tree path = .ok bytes := by
  have partway := (Partway.refl exact tree).reindex exact { tree := tree, now := now }
  have done : ∀ path ∈ (model.reindex { tree := tree, now := now }).2.catalog.staleness.dirty,
      model.Unreadable tree path := fun path => unreadable_of_dirty_reindex
  have nothing : model.undatedAt path = none := by
    rw [undatedAt, Option.map_eq_none_iff, ← Option.not_isSome_iff_eq_none,
      ← Catalog.mem_records_iff]
    exact unrecorded
  have dirty_of_reaches : model.Reaches tree path → path ∈ model.catalog.staleness.dirty := by
    intro reaches
    cases reaches with
    | stale dirty => exact dirty
    | spread _ _ _ importer =>
        exact absurd ((Catalog.mem_records_iff _ _).mpr
          (exact.coherent.isSome_of_mem_importersOf importer)) unrecorded
  have recorded : path ∈ (model.reindex { tree := tree, now := now }).2.catalog.records ↔
      ((model.reindex { tree := tree, now := now }).2.undatedAt path).isSome := by
    rw [Catalog.mem_records_iff, undatedAt, Option.isSome_map]
  rw [recorded]
  constructor
  · intro present
    by_cases taken : model.Reaches tree path ∧ ¬ model.Unreadable tree path
    · rw [partway.undatedAt_of_reaches done taken.1 taken.2, renewedAt] at present
      refine ⟨dirty_of_reaches taken.1, ?_, ?_⟩
      · rw [← Bool.not_eq_false]
        exact fun foreign => taken.2 (Or.inr (Or.inl foreign))
      · cases read : model.workspace.read tree path with
        | ok bytes => exact ⟨bytes, rfl⟩
        | error reason =>
            rw [Workspace.renewal_of_error read] at present
            exact absurd present (by simp)
    · rw [partway.undatedAt_of_not_reaches taken, nothing] at present
      exact absurd present (by simp)
  · rintro ⟨dirty, indexable, bytes, read⟩
    rw [partway.undatedAt_of_reaches done (.stale dirty)
        (readable_of_read on indexable (Or.inl ⟨bytes, read⟩)),
      renewedAt, nothing, Workspace.renewal_of_differs read (by simp)]
    rfl

/-! ## Reported files -/

/-- The model after a report about a path and a run over the files. -/
def afterReport (model : Model) (kind : EventKind) (path : String) (tree : FileTree)
    (now : Timestamp) : Model :=
  ((model.apply { kind := kind, path := path }).reindex { tree := tree, now := now }).2

section Reported

variable {workspace : Workspace} (config : Config) (origin : Origin) (actions : List Action)
  {kind : EventKind} {path : String} {tree : FileTree} {file : File} (now : Timestamp)

theorem workspace_afterReport (model : Model) :
    (model.afterReport kind path tree now).workspace = model.workspace :=
  (workspace_reindex _ _).trans (apply_frame model { kind := kind, path := path }).1

/-- A reported file without a record gets one if it is to be indexed and not too large. -/
theorem mem_records_afterReport (found : workspace.fileAt? tree path = some file)
    (unrecorded : ¬ path ∈ (reached workspace config origin actions).catalog.records)
    (there : ¬ kind = .deleted) :
    path ∈ ((reached workspace config origin actions).afterReport kind path tree
        now).catalog.records ↔
      workspace.isIndexable path = true ∧ file.bytes.size ≤ workspace.maxFileSize := by
  have on := enabled_reached workspace config origin actions true
  have exact := exact_reached workspace config origin actions true
  have vetted := vetted_reached workspace config origin actions path
  have same : (reached workspace config origin actions).workspace = workspace :=
    (reached_frame workspace config origin actions true).1
  have exactNoted := exact_perform exact (.apply { kind := kind, path := path })
  have readable : (∃ bytes, workspace.read tree path = .ok bytes) ↔
      file.bytes.size ≤ workspace.maxFileSize := by
    simp [Workspace.read_eq_ok, found]
  generalize reached workspace config origin actions = model
    at on exactNoted same vetted unrecorded ⊢
  subst same
  dsimp only [Action.perform] at exactNoted
  rw [apply_of_there model there] at exactNoted
  rw [afterReport, apply_of_there model there,
    mem_records_reindex_of_unrecorded ((Catalog.enabled_note _ _ path).trans on) exactNoted
      (by rwa [Catalog.records_note])]
  dsimp only
  rw [Catalog.mem_dirty_note, readable]
  constructor
  · rintro ⟨marked | already, _, small⟩
    · exact ⟨marked.1, small⟩
    · exact ⟨(vetted (Or.inl already)).resolve_right fun settled => unrecorded settled.1, small⟩
  · rintro ⟨indexable, small⟩
    exact ⟨Or.inl ⟨indexable, rfl⟩, Workspace.indexable_of_isIndexable indexable, small⟩

/-- A comparison with the files keeps the records of listed files. -/
theorem mem_records_reconcile (model : Model) (tree : FileTree) (path : String) :
    path ∈ (model.reconcile tree).2.catalog.records ↔
      path ∈ model.workspace.listFiles tree ∧ path ∈ model.catalog.records := by
  rw [catalog_reconcile, Catalog.mem_records_iff, Catalog.getElem?_records_reconcile_of_listing,
    Catalog.mem_records_iff, ← mem_listing]
  by_cases listed : path ∈ (model.listing tree).map (·.1) <;> simp [listed]

/-- A file without a record is reported, and a run follows that is not cancelled. Whatever was done
to the model before, it has a record of the file then if it is to be indexed and not too large. Such
a file is listed only if its path is in normal form and the rules reach it. If it is not listed, the
next comparison with the files drops the record. -/
theorem reported_file_admitted {opened : FileTree} {root : String} {settings : IndexSettings}
    (made : Workspace.make opened root settings = .ok workspace) (wellFormed : tree.WellFormed)
    (found : workspace.fileAt? tree path = some file)
    (unrecorded : ¬ path ∈ (reached workspace config origin actions).catalog.records)
    (there : ¬ kind = .deleted) :
    (path ∈ ((reached workspace config origin actions).afterReport kind path tree
        now).catalog.records ↔
      workspace.isIndexable path = true ∧ file.bytes.size ≤ workspace.maxFileSize) ∧
    (path ∈ workspace.listFiles tree ↔
      path ∈ ((reached workspace config origin actions).afterReport kind path tree
        now).catalog.records ∧
      workspace.relative? path = some path ∧
      Ignore.reaches tree workspace.rootSteps (parts path) = true) ∧
    (path ∈ (((reached workspace config origin actions).afterReport kind path tree
        now).reconcile tree).2.catalog.records ↔
      path ∈ workspace.listFiles tree) := by
  have recorded := mem_records_afterReport config origin actions now found unrecorded there
  have listed : path ∈ workspace.listFiles tree ↔
      path ∈ ((reached workspace config origin actions).afterReport kind path tree
        now).catalog.records ∧
      workspace.relative? path = some path ∧
      Ignore.reaches tree workspace.rootSteps (parts path) = true := by
    rw [recorded]
    exact Workspace.mem_listFiles_of_found (Workspace.rooted_of_make made) wellFormed found
  refine ⟨recorded, listed, ?_⟩
  have same : ((reached workspace config origin actions).afterReport kind path tree
      now).workspace = workspace :=
    (workspace_afterReport now _).trans (reached_frame workspace config origin actions true).1
  generalize (reached workspace config origin actions).afterReport kind path tree now = after
    at listed same ⊢
  rw [mem_records_reconcile, same]
  exact ⟨And.left, fun isListed => ⟨isListed, (listed.mp isListed).1⟩⟩

end Reported

/-! ### A directory that is passed over -/

def rulesTree : FileTree :=
  (FileTree.empty.write? "/p/.gitignore" { bytes := "gen/\n".toUTF8, modified := 1 } 0).get
    (by decide +kernel)

def partlyRuledTree : FileTree :=
  (rulesTree.write? "/p/gen/a.ts" { bytes := "export function f() \x7b\x7d\n".toUTF8, modified := 1 }
    0).get (by decide +kernel)

/-- The files of one directory are passed over, those of another one are not. -/
def ruledTree : FileTree :=
  (partlyRuledTree.write? "/p/lib/a.ts" { bytes := "const g = 1;\n".toUTF8, modified := 1 }
    0).get (by decide +kernel)

def ruledWorkspace : Workspace :=
  match Workspace.make ruledTree "/p" {} with
  | .ok workspace => workspace
  | .error _ => { root := "/", includes := [], excludes := [], maxFileSize := 0 }

theorem wellFormed_ruledTree : ruledTree.WellFormed := by
  have rules : FileTree.empty.write? "/p/.gitignore" { bytes := "gen/\n".toUTF8, modified := 1 } 0 =
      some rulesTree := (Option.some_get _).symm
  have partly : rulesTree.write? "/p/gen/a.ts"
      { bytes := "export function f() \x7b\x7d\n".toUTF8, modified := 1 } 0 =
        some partlyRuledTree := (Option.some_get _).symm
  have whole : partlyRuledTree.write? "/p/lib/a.ts"
      { bytes := "const g = 1;\n".toUTF8, modified := 1 } 0 = some ruledTree :=
    (Option.some_get _).symm
  exact (((FileTree.wellFormed_empty.write? rules).1.write? partly).1.write? whole).1

/-- A file that is not passed over is reported to a model that was opened on the files. It gets its
record, is listed, and keeps the record when the files are compared. -/
theorem unruled_file_admitted :
    Workspace.make ruledTree "/p" {} = .ok ruledWorkspace ∧
      "lib/a.ts" ∈ ((reached ruledWorkspace {} (.kept {} ruledTree) []).afterReport .changed
        "lib/a.ts" ruledTree 2).catalog.records ∧
      "lib/a.ts" ∈ ruledWorkspace.listFiles ruledTree ∧
      "lib/a.ts" ∈ (((reached ruledWorkspace {} (.kept {} ruledTree) []).afterReport .changed
        "lib/a.ts" ruledTree 2).reconcile ruledTree).2.catalog.records := by
  have made : Workspace.make ruledTree "/p" {} = .ok ruledWorkspace := rfl
  obtain ⟨file, found⟩ : ∃ file, ruledWorkspace.fileAt? ruledTree "lib/a.ts" = some file :=
    Option.isSome_iff_exists.mp (by decide +kernel)
  have small : file.bytes.size ≤ ruledWorkspace.maxFileSize := by
    have limited : ∀ other, ruledWorkspace.fileAt? ruledTree "lib/a.ts" = some other →
        other.bytes.size ≤ ruledWorkspace.maxFileSize := by
      decide +kernel
    exact limited file found
  have accepted : ruledWorkspace.isIndexable "lib/a.ts" = true ∧
      ruledWorkspace.relative? "lib/a.ts" = some "lib/a.ts" ∧
      Ignore.reaches ruledTree ruledWorkspace.rootSteps (parts "lib/a.ts") = true := by
    decide +kernel
  have unrecorded :
      ¬ "lib/a.ts" ∈ (reached ruledWorkspace {} (.kept {} ruledTree) []).catalog.records := by
    decide +kernel
  have there : ¬ EventKind.changed = .deleted := by decide
  obtain ⟨recorded, listed, kept⟩ := reported_file_admitted {} (.kept {} ruledTree) [] 2 made
    wellFormed_ruledTree found unrecorded there
  have isRecorded := recorded.mpr ⟨accepted.1, small⟩
  have isListed := listed.mpr ⟨isRecorded, accepted.2⟩
  exact ⟨made, isRecorded, isListed, kept.mpr isListed⟩

/-- A file that is passed over gets a record by a report all the same, though it is not listed. -/
theorem ruled_file_recorded :
    Workspace.make ruledTree "/p" {} = .ok ruledWorkspace ∧
      ((reached ruledWorkspace {} (.kept {} ruledTree) []).afterReport .created "gen/a.ts" ruledTree
        2).catalog.records.keys = ["gen/a.ts", "lib/a.ts"] ∧
      ruledWorkspace.listFiles ruledTree = ["lib/a.ts"] := by
  refine ⟨rfl, ?_⟩
  decide +kernel

end Model

end CodeIndex
