import CodeIndex.Proofs.LiveModel
import CodeIndex.Proofs.Model.Drain

/-!
Contract: an index that is kept up to date step by step is the index made from scratch.

Owns:
- `LiveModel.Tracks.settled_reindexed`: a run over all stale files leaves nothing stale;
- `LiveModel.Tracks.agrees`: two models that follow the same files with nothing stale agree;
- `LiveModel.reindexed_agrees_with_fresh`: whatever steps led to it, a model agrees with one that is
  opened on the files as they are.

Two spellings of one path are two files to a model. Steps name files by the normal form of their
paths; `LiveModel.detour_is_a_second_file` shows what happens otherwise.
-/

set_option autoImplicit false

namespace CodeIndex

theorem Workspace.Admits.readable {workspace : Workspace} {tree : FileTree} {path : String}
    {file : File} (admits : workspace.Admits tree path file)
    (small : file.bytes.size ≤ workspace.maxFileSize) : ¬ workspace.Unreadable tree path := by
  have indexable := indexable_of_isIndexable admits.indexable
  have read : workspace.read tree path = .ok file.bytes :=
    (read_eq_ok _).mpr ⟨file, admits.found, small, rfl⟩
  rintro (foreign | ⟨reason, failed, _⟩)
  · rw [foreign] at indexable
    exact absurd indexable (by simp)
  · rw [read] at failed
    exact absurd failed (by simp)

namespace LiveModel

namespace Tracks

variable {workspace : Workspace} {config : Config} {known : String → ByteArray → Prop}

section Settled

variable {live : LiveModel} (tracks : Tracks workspace config known live)
  (small : ∀ path file, workspace.Admits live.tree path file →
    file.bytes.size ≤ workspace.maxFileSize)

include tracks small

/-- Once nothing is stale, there is a record of every file and of nothing else. -/
theorem undated_of_settled (settled : ∀ path, ¬ path ∈ live.model.catalog.staleness.dirty)
    (path : String) :
    (∀ file, workspace.Admits live.tree path file →
      live.model.catalog.records[path]?.map Record.undated =
        some (Record.ofBytes path file.bytes 0)) ∧
    ((¬ ∃ file, workspace.Admits live.tree path file) →
      live.model.catalog.records[path]? = none) := by
  constructor
  · intro file admitted
    have inStep := tracks.inStep path file admitted (small path file admitted)
    obtain ⟨now, found⟩ := inStep.resolve_left (settled path)
    rw [found, Option.map_some, Record.undated_ofBytes]
  · intro absent
    rw [Option.eq_none_iff_forall_ne_some]
    exact fun record found => absent (tracks.recorded path record found).1

/-- A run that is not cancelled leaves nothing stale. -/
theorem settled_reindexed (discernible : Discernible known) (now : Timestamp) (path : String) :
    ¬ path ∈ (live.reindexed now).catalog.staleness.dirty := by
  intro dirty
  have unreadable := Model.unreadable_of_dirty_reindex dirty
  obtain ⟨file, admitted⟩ := (tracks.reindexed discernible now).stale path dirty
  rw [Model.Unreadable, tracks.enabled, tracks.workspace_eq] at unreadable
  exact admitted.readable (small path file admitted) (unreadable.resolve_left (by simp))

end Settled

/-- Two models that follow the same files, with nothing stale, agree. -/
theorem agrees {tree : FileTree} {left right : Model}
    (leftTracks : Tracks workspace config known { tree := tree, model := left })
    (rightTracks : Tracks workspace config known { tree := tree, model := right })
    (small : ∀ path file, workspace.Admits tree path file →
      file.bytes.size ≤ workspace.maxFileSize)
    (leftSettled : ∀ path, ¬ path ∈ left.catalog.staleness.dirty)
    (rightSettled : ∀ path, ¬ path ∈ right.catalog.staleness.dirty) : left.Agrees right := by
  have config_eq : left.config = right.config :=
    leftTracks.config_eq.trans rightTracks.config_eq.symm
  apply leftTracks.viewed.agrees rightTracks.viewed config_eq
  intro path
  obtain ⟨leftThere, leftAbsent⟩ := leftTracks.undated_of_settled small leftSettled path
  obtain ⟨rightThere, rightAbsent⟩ := rightTracks.undated_of_settled small rightSettled path
  by_cases present : ∃ file, workspace.Admits tree path file
  · obtain ⟨file, admitted⟩ := present
    exact (leftThere file admitted).trans (rightThere file admitted).symm
  · have absent := (leftAbsent present).trans (rightAbsent present).symm
    exact congrArg (Option.map Record.undated) absent

end Tracks

/-- Whatever happened to the files, as long as every step was reported, and whenever runs were
cancelled: after a run over all stale files nothing is stale, and the model agrees with one that is
opened on the files as they are now. -/
theorem reindexed_agrees_with_fresh {tree : FileTree} {root : String} {workspace : Workspace}
    {config : Config} {trees : List FileTree} {live : LiveModel} (now later : Timestamp)
    (wellFormed : tree.WellFormed)
    (made : Workspace.make tree root config.index = .ok workspace)
    (run : Run workspace (fresh workspace config tree) trees live)
    (listed : ∀ tree ∈ trees, ∀ path file, workspace.Admits tree path file →
      file.bytes.size ≤ workspace.maxFileSize → path ∈ workspace.listFiles tree)
    (small : ∀ path file, workspace.Admits live.tree path file →
      file.bytes.size ≤ workspace.maxFileSize)
    (plain : ∀ tree ∈ trees, ∀ path file, workspace.Admits tree path file → Plain path)
    (distinct : ∀ left ∈ trees, ∀ right ∈ trees, ∀ path leftFile rightFile,
      workspace.Admits left path leftFile → workspace.Admits right path rightFile →
      fingerprint leftFile.bytes = fingerprint rightFile.bytes →
      leftFile.bytes = rightFile.bytes) :
    Workspace.make live.tree root config.index = .ok workspace ∧
      (live.reindexed now).catalog.listStale = [] ∧
      (live.reindexed now).Agrees ((fresh workspace config live.tree).reindexed later) := by
  have rooted := Workspace.rooted_of_make made
  obtain ⟨startIn, liveIn⟩ := run.mem
  -- What any of the files held at any moment.
  let known : String → ByteArray → Prop := fun path bytes =>
    ∃ moment ∈ trees, ∃ file, workspace.Admits moment path file ∧ file.bytes = bytes
  have files : ∀ moment ∈ trees, ∀ path file, workspace.Admits moment path file →
      known path file.bytes :=
    fun moment member path file admitted => ⟨moment, member, file, admitted, rfl⟩
  have discernible : Discernible known := by
    constructor
    · rintro path _ ⟨moment, member, file, admitted, rfl⟩
      exact plain moment member path file admitted
    · rintro path _ _ ⟨left, leftIn, leftFile, leftAdmitted, rfl⟩
        ⟨right, rightIn, rightFile, rightAdmitted, rfl⟩
      exact distinct left leftIn right rightIn path leftFile rightFile leftAdmitted rightAdmitted
  have start : Tracks workspace config known (fresh workspace config tree) :=
    Tracks.fresh config rooted wellFormed (files tree startIn) (listed tree startIn)
  obtain ⟨tracks, directories⟩ := run.tracks discernible rooted files start
  have again : Tracks workspace config known (fresh workspace config live.tree) :=
    Tracks.fresh config rooted tracks.wellFormed (files _ liveIn) (listed _ liveIn)
  have settled := tracks.settled_reindexed small discernible now
  have reindexed := tracks.reindexed discernible now
  have freshSettled := again.settled_reindexed small discernible later
  have freshReindexed := again.reindexed discernible later
  refine ⟨Workspace.make_of_grown tracks.wellFormed directories made, ?_, ?_⟩
  · apply List.eq_nil_iff_forall_not_mem.mpr
    intro path stale
    exact settled path ((Staleness.mem_listStale _ path).mp stale)
  · exact reindexed.agrees freshReindexed small settled freshSettled

/-! ## A short history -/

def firstFile : File :=
  { bytes := "export function f() \x7b\x7d\n".toUTF8, modified := 1000 }

def secondFile : File :=
  { bytes := "import * as a from \"./a\";\nexport const g = () => a.f();\n".toUTF8
    modified := 1000 }

def changedFile : File :=
  { bytes := "export const f = () => 1;\n".toUTF8, modified := 2000 }

/-- Runs may be cancelled after every file. -/
def sampleConfig : Config :=
  { index := { batchSize := 1 } }

def sampleTree : FileTree :=
  (FileTree.empty.write? "/p/a.ts" firstFile 0).get (by decide +kernel)

def sampleWorkspace : Workspace :=
  match Workspace.make sampleTree "/p" sampleConfig.index with
  | .ok workspace => workspace
  | .error _ => { root := "/", includes := [], excludes := [], maxFileSize := 0 }

def extendedTree : FileTree :=
  (sampleTree.write? (sampleWorkspace.absolute "b.ts") secondFile 0).get (by decide +kernel)

def changedTree : FileTree :=
  (extendedTree.write? (sampleWorkspace.absolute "a.ts") changedFile 0).get (by decide +kernel)

def reducedTree : FileTree :=
  (changedTree.remove? (sampleWorkspace.absolute "b.ts")).get (by decide +kernel)

/-- The files before and after five steps, the last ones first. -/
def sampleTrees : List FileTree :=
  [reducedTree, changedTree, changedTree, extendedTree, extendedTree, sampleTree]

theorem make_sampleTree :
    Workspace.make sampleTree "/p" sampleConfig.index = .ok sampleWorkspace := rfl

/-- Both paths are in normal form, and the second one is that of a file to be indexed. -/
theorem sample_paths :
    sampleWorkspace.relative? "a.ts" = some "a.ts" ∧
      sampleWorkspace.relative? "b.ts" = some "b.ts" ∧
      sampleWorkspace.isIndexable "b.ts" = true ∧
      sampleWorkspace.hasFile changedTree "b.ts" = true := by
  decide +kernel

theorem write?_sampleTree :
    sampleTree.write? (sampleWorkspace.absolute "b.ts") secondFile 0 = some extendedTree :=
  (Option.some_get _).symm

theorem write?_extendedTree :
    extendedTree.write? (sampleWorkspace.absolute "a.ts") changedFile 0 = some changedTree :=
  (Option.some_get _).symm

theorem remove?_changedTree :
    changedTree.remove? (sampleWorkspace.absolute "b.ts") = some reducedTree :=
  (Option.some_get _).symm

theorem wellFormed_sampleTree : sampleTree.WellFormed := by
  have written : FileTree.empty.write? "/p/a.ts" firstFile 0 = some sampleTree :=
    (Option.some_get _).symm
  exact (FileTree.wellFormed_empty.write? written).1

/-- A second file is written, a run is cancelled after the first one, the first one is changed, the
second one is asked for and then deleted. -/
theorem exists_sampleRun :
    ∃ live,
      Run sampleWorkspace (fresh sampleWorkspace sampleConfig sampleTree) sampleTrees live := by
  obtain ⟨first, second, indexable, present⟩ := sample_paths
  have created : ¬ EventKind.created = .deleted := by decide
  have changed : ¬ EventKind.changed = .deleted := by decide
  have opened : Run sampleWorkspace (fresh sampleWorkspace sampleConfig sampleTree) _ _ := .start
  have written := opened.step (.write second created write?_sampleTree)
  have cancelled := written.step (.reindex 1 fun number => number == 1)
  have rewritten := cancelled.step (.write first changed write?_extendedTree)
  have asked := rewritten.step (.get 2 second indexable)
  have deleted := asked.step (.delete second present remove?_changedTree)
  exact ⟨_, deleted⟩

theorem wellFormed_sampleTrees : ∀ tree ∈ sampleTrees, tree.WellFormed := by
  have rooted := Workspace.rooted_of_make make_sampleTree
  have extended := wellFormed_sampleTree.write? write?_sampleTree
  have changed := extended.1.write? write?_extendedTree
  obtain ⟨_, second, _, present⟩ := sample_paths
  have reduced := Workspace.fileAt?_remove? rooted changed.1 second present remove?_changedTree
  simp [sampleTrees, wellFormed_sampleTree, extended.1, changed.1, reduced.1]

theorem mem_filesIn_of_admits {tree : FileTree} (member : tree ∈ sampleTrees) {path : String}
    {file : File} (admitted : sampleWorkspace.Admits tree path file) :
    (path, file) ∈ sampleWorkspace.filesIn tree :=
  (Workspace.mem_filesIn (Workspace.rooted_of_make make_sampleTree)
    (wellFormed_sampleTrees tree member) file).mpr ⟨admitted.normal, admitted.found⟩

theorem listed_sampleTrees : ∀ tree ∈ sampleTrees, ∀ entry ∈ sampleWorkspace.filesIn tree,
    entry.1 ∈ sampleWorkspace.listFiles tree ∧
      entry.2.bytes.size ≤ sampleWorkspace.maxFileSize ∧ Plain entry.1 := by
  decide +kernel

theorem distinct_sampleTrees : ∀ left ∈ sampleTrees, ∀ right ∈ sampleTrees,
    ∀ leftEntry ∈ sampleWorkspace.filesIn left, ∀ rightEntry ∈ sampleWorkspace.filesIn right,
      fingerprint leftEntry.2.bytes = fingerprint rightEntry.2.bytes →
        leftEntry.2.bytes = rightEntry.2.bytes := by
  decide +kernel

/-- The history at its end. -/
theorem sample_history_agrees :
    ∃ live, Run sampleWorkspace (fresh sampleWorkspace sampleConfig sampleTree) sampleTrees live ∧
      Workspace.make live.tree "/p" sampleConfig.index = .ok sampleWorkspace ∧
      (live.reindexed 3).catalog.listStale = [] ∧
      (live.reindexed 3).Agrees ((fresh sampleWorkspace sampleConfig live.tree).reindexed 4) := by
  obtain ⟨live, run⟩ := exists_sampleRun
  have finalIn : live.tree ∈ sampleTrees := run.mem.2
  refine ⟨live, run, reindexed_agrees_with_fresh 3 4 wellFormed_sampleTree make_sampleTree run
    ?_ ?_ ?_ ?_⟩
  · intro tree member path file admitted _
    exact (listed_sampleTrees tree member _ (mem_filesIn_of_admits member admitted)).1
  · intro path file admitted
    exact (listed_sampleTrees live.tree finalIn _ (mem_filesIn_of_admits finalIn admitted)).2.1
  · intro tree member path file admitted
    exact (listed_sampleTrees tree member _ (mem_filesIn_of_admits member admitted)).2.2
  · intro left leftIn right rightIn path leftFile rightFile leftAdmitted rightAdmitted
    exact distinct_sampleTrees left leftIn right rightIn
      (path, leftFile) (mem_filesIn_of_admits leftIn leftAdmitted)
      (path, rightFile) (mem_filesIn_of_admits rightIn rightAdmitted)

/-- A file has been asked for under another spelling of its path. -/
def detour : LiveModel :=
  { tree := sampleTree
    model :=
      ((fresh sampleWorkspace sampleConfig sampleTree).model.getEntry sampleTree "./a.ts" 1).2 }

/-- It has got a second record, which a model that is opened on the same files does not have. -/
theorem detour_is_a_second_file :
    Workspace.make sampleTree "/p" sampleConfig.index = .ok sampleWorkspace ∧
      (∀ entry ∈ sampleWorkspace.filesIn sampleTree,
        entry.1 ∈ sampleWorkspace.listFiles sampleTree ∧
          entry.2.bytes.size ≤ sampleWorkspace.maxFileSize ∧ Plain entry.1) ∧
      sampleWorkspace.isIndexable "./a.ts" = true ∧
      (detour.reindexed 2).catalog.records.keys = ["./a.ts", "a.ts"] ∧
      ((fresh sampleWorkspace sampleConfig sampleTree).reindexed 2).catalog.records.keys =
        ["a.ts"] := by
  refine ⟨rfl, ?_⟩
  decide +kernel

end LiveModel

end CodeIndex
