import CodeIndex.Proofs.Model.Reached

/-!
Contract: which records a model hands out.

Owns:
- `Model.HandsOut`: a record is handed out because it is current, or though it may be outdated;
- `Model.handed_out_records`: a model hands out these records and no others.

A model looks a record up after the file was brought up to date, whatever came of that. A file that
cannot be read leaves the old record in place, and so does a catalog that is not enabled.
-/

set_option autoImplicit false

namespace CodeIndex

namespace Catalog

/-- If the outcome of a look-up carries no record, there is one afterwards only if nothing was done,
since no file can be parsed, or since this one had to be read and could not be. -/
theorem LookedUp.outdated {workspace : Workspace} {tree : FileTree} {path : String}
    {now : Timestamp} {before after : Catalog} {outcome : Outcome} {record : Record}
    (looked : LookedUp workspace tree path now before outcome after)
    (empty : outcome.record? = none) (found : after.records[path]? = some record) :
    before.records[path]? = some record ∧
      (before.enabled = false ∨
        before.isStale path = true ∧ workspace.Unreadable tree path) := by
  cases looked with
  | disabled off => exact ⟨found, Or.inl off⟩
  | cached _ _ _ => exact absurd empty (by simp [Outcome.record?])
  | absent pending unreadable =>
      have stale : before.isStale path = true := pending.resolve_right (by simp [found])
      exact ⟨found, Or.inr ⟨stale, unreadable⟩⟩
  | refreshed _ _ _ _ _ => exact absurd empty (by simp [Outcome.record?])
  | reindexed _ _ _ => exact absurd empty (by simp [Outcome.record?])
  | removed missing =>
      rw [(spreads_removeFile before path).sets.self] at found
      exact absurd found (by simp)

end Catalog

namespace Model

/-- Why a model hands out a record. -/
inductive HandsOut (model : Model) (tree : FileTree) (path : String) (now : Timestamp)
    (record : Record) : Prop where
  /-- The catalog brought the record up to date or found it clean, and it is not stale then. -/
  | current
      (carried : (model.catalog.getEntry model.workspace tree path now).1.record? = some record)
      (clean : (model.getEntry tree path now).2.isStale path = false)
  /-- The record is stale and the file cannot be read. -/
  | outdated (kept : model.catalog.record? path = some record)
      (stale : model.isStale path = true)
      (unreadable : model.workspace.Unreadable tree path)
  /-- No file can be parsed, so that the catalog does not tell whether the record is stale. -/
  | disabled (kept : model.catalog.record? path = some record)
      (off : model.catalog.enabled = false)

/-- The catalog has nothing to give if no file can be parsed, or if a stale file cannot be read. The
model is left as it was then, with the record of earlier. -/
theorem getEntry_of_unusable {model : Model} {tree : FileTree} {path : String}
    (unusable : model.catalog.enabled = false ∨
      model.isStale path = true ∧ model.workspace.Unreadable tree path) (now : Timestamp) :
    model.getEntry tree path now = (model.catalog.record? path, model) ∧
      (model.catalog.getEntry model.workspace tree path now).1 = .absent := by
  have unreadable : model.Unreadable tree path := unusable.imp_right And.right
  constructor
  · rw [getEntry, refresh_eq_self unreadable now]
  · rcases unusable with off | ⟨stale, unread⟩
    · rw [model.catalog.getEntry_of_disabled _ tree path now off]
    · rw [model.catalog.getEntry_of_unreadable _ tree path now (Or.inl stale) unread]

theorem getEntry_eq_some_iff (model : Model) (tree : FileTree) (path : String) (now : Timestamp)
    (record : Record) :
    (model.getEntry tree path now).1 = some record ↔ model.HandsOut tree path now record := by
  have looked := model.catalog.getEntry_spec model.workspace tree path now
  have after : (model.getEntry tree path now).2.catalog =
      (model.catalog.getEntry model.workspace tree path now).2 :=
    catalog_refresh model tree path now
  have handed : (model.getEntry tree path now).1 =
      (model.catalog.getEntry model.workspace tree path now).2.records[path]? :=
    congrArg (fun catalog : Catalog => catalog.records[path]?) after
  rw [handed]
  constructor
  · intro found
    cases carried : (model.catalog.getEntry model.workspace tree path now).1.record? with
    | some other =>
        obtain ⟨recorded, clean⟩ := looked.current carried
        obtain rfl := Option.some.inj (recorded.symm.trans found)
        refine .current carried ?_
        rw [isStale, after]
        exact clean
    | none =>
        obtain ⟨kept, off | ⟨stale, unreadable⟩⟩ := looked.outdated carried found
        · exact .disabled kept off
        · exact .outdated kept stale unreadable
  · intro handsOut
    cases handsOut with
    | current carried _ => exact (looked.current carried).1
    | outdated kept stale unreadable =>
        rw [← handed, (getEntry_of_unusable (Or.inr ⟨stale, unreadable⟩) now).1]
        exact kept
    | disabled kept off =>
        rw [← handed, (getEntry_of_unusable (Or.inl off) now).1]
        exact kept

/-- A record that a model hands out is one that the catalog has brought up to date and that is not
stale then, or else it is stale and its file cannot be read, or no file can be parsed. The text with
collapsed bodies is that of the same record. So what is handed out is current as long as files can
be parsed and the path is not both stale and unreadable. Otherwise the record of earlier is handed
out, though the catalog has nothing to give. -/
theorem handed_out_records (model : Model) (tree : FileTree) (path : String) (now : Timestamp) :
    (∀ record, (model.getEntry tree path now).1 = some record ↔
      model.HandsOut tree path now record) ∧
    (∀ text, (model.skeleton tree path now).1 = some text ↔
      ∃ record, model.HandsOut tree path now record ∧ record.skeleton = text) ∧
    (model.skeleton tree path now).2 = (model.getEntry tree path now).2 ∧
    (¬ (model.catalog.enabled = false ∨
        model.isStale path = true ∧ model.workspace.Unreadable tree path) →
      ∀ record, (model.getEntry tree path now).1 = some record →
        (model.catalog.getEntry model.workspace tree path now).1.record? = some record ∧
        (model.getEntry tree path now).2.isStale path = false) ∧
    (model.catalog.enabled = false ∨
        model.isStale path = true ∧ model.workspace.Unreadable tree path →
      model.getEntry tree path now = (model.catalog.record? path, model) ∧
      (model.catalog.getEntry model.workspace tree path now).1 = .absent) := by
  refine ⟨getEntry_eq_some_iff model tree path now, ?_, rfl, ?_, ?_⟩
  · intro text
    simp only [← getEntry_eq_some_iff]
    exact Option.map_eq_some_iff
  · intro usable record handed
    cases (getEntry_eq_some_iff model tree path now record).mp handed with
    | current carried clean => exact ⟨carried, clean⟩
    | outdated _ stale unreadable => exact absurd (Or.inr ⟨stale, unreadable⟩) usable
    | disabled _ off => exact absurd (Or.inl off) usable
  · exact fun unusable => getEntry_of_unusable unusable now

/-! ### Files that cannot be read or parsed any more -/

def smallTree : FileTree :=
  (FileTree.empty.write? "/p/a.ts" { bytes := "export function f() \x7b\x7d\n".toUTF8, modified := 1 }
    0).get (by decide +kernel)

/-- Files of more than thirty bytes are not read. -/
def limitedWorkspace : Workspace :=
  match Workspace.make smallTree "/p" { maxFileSize := 30 } with
  | .ok workspace => workspace
  | .error _ => { root := "/", includes := [], excludes := [], maxFileSize := 0 }

/-- The file has been asked for, and a change of it has been reported. -/
def askedModel : Model :=
  reached limitedWorkspace {} (.kept {} smallTree)
    [.getEntry smallTree "a.ts" 1, .apply { kind := .changed, path := "a.ts" }]

/-- The file has grown too large. -/
def grownTree : FileTree :=
  (smallTree.write? "/p/a.ts"
    { bytes := "export function g() \x7b\x7d\nexport function h() \x7b\x7d\n".toUTF8, modified := 2 }
    0).get (by decide +kernel)

/-- A directory is at the place of the file. -/
def nestedTree : FileTree :=
  (FileTree.empty.write? "/p/a.ts/b.ts" { bytes := "".toUTF8, modified := 2 } 0).get
    (by decide +kernel)

/-- The file has been asked for, and the model is opened again where no file can be parsed. -/
def disabledModel : Model :=
  let opened := reached limitedWorkspace {} (.kept {} smallTree) [.getEntry smallTree "a.ts" 1]
  reached limitedWorkspace {} (.kept opened.state smallTree) [] false

/-- A directory is at the place of the file, and still its record is handed out. So it is where no
file can be parsed, though the file is as it was. -/
theorem nested_record_handed_out :
    (askedModel.isStale "a.ts" = true ∧ (askedModel.catalog.record? "a.ts").isSome ∧
      askedModel.workspace.Unreadable nestedTree "a.ts" ∧
      askedModel.getEntry nestedTree "a.ts" 2 = (askedModel.catalog.record? "a.ts", askedModel) ∧
      (askedModel.catalog.getEntry askedModel.workspace nestedTree "a.ts" 2).1 = .absent) ∧
    disabledModel.isStale "a.ts" = false ∧ (disabledModel.catalog.record? "a.ts").isSome ∧
      disabledModel.getEntry smallTree "a.ts" 2 =
        (disabledModel.catalog.record? "a.ts", disabledModel) ∧
      (disabledModel.catalog.getEntry disabledModel.workspace smallTree "a.ts" 2).1 = .absent := by
  have held : askedModel.isStale "a.ts" = true ∧ (askedModel.catalog.record? "a.ts").isSome := by
    decide +kernel
  have unreadable : askedModel.workspace.Unreadable nestedTree "a.ts" := by
    rw [askedModel, (reached_frame _ _ _ _ _).1]
    exact Or.inr ⟨.unreadable, rfl, by simp⟩
  have kept : disabledModel.isStale "a.ts" = false ∧
      (disabledModel.catalog.record? "a.ts").isSome := by decide +kernel
  have handed := (handed_out_records askedModel nestedTree "a.ts" 2).2.2.2.2
    (Or.inr ⟨held.1, unreadable⟩)
  have again := (handed_out_records disabledModel smallTree "a.ts" 2).2.2.2.2
    (Or.inl (enabled_reached _ _ _ _ _))
  exact ⟨⟨held.1, held.2, unreadable, handed⟩, kept.1, kept.2, again⟩

/-- The file has grown too large while its record is stale. The record of earlier and its text are
handed out, and the path is stale still. -/
theorem grown_record_handed_out :
    (askedModel.getEntry grownTree "a.ts" 2).1.map (·.fingerprint) = some "e1a69e63c2277cb7" ∧
      (askedModel.getEntry grownTree "a.ts" 2).2.isStale "a.ts" = true ∧
      (askedModel.catalog.getEntry askedModel.workspace grownTree "a.ts" 2).1.record?.isNone ∧
      (askedModel.skeleton grownTree "a.ts" 2).1 =
        some "export function f() \x7b ... \x7d\n" := by
  decide +kernel

end Model

end CodeIndex
