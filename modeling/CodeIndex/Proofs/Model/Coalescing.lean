import CodeIndex.Proofs.Event
import CodeIndex.Proofs.Incremental
import CodeIndex.Proofs.Model.Drawn
import CodeIndex.Proofs.Model.Grounded

/-!
Contract: many reports come to the same as the one batch that they are put together in.

Owns:
- `Event.verdict?`: what reports say of a path in the end, if they say anything;
- `Event.verdict?_coalesce`: the batch says the same;
- `Model.Grounded.foldl_apply`: reports keep a model grounded;
- `Model.coalesce_agrees`: reports one by one, or put together, lead to models that agree.

A batch marks other importers on the way than the single reports do: a file that is deleted and made
again in between is only marked. After a run that makes no difference, since what is not marked is
as its file is.
-/

set_option autoImplicit false

namespace CodeIndex

/-! ## Reports -/

namespace Event

/-- Whether a file is there after the reports, if they say anything of it. -/
def verdict? : List Event → String → Option Bool
  | [], _ => none
  | event :: rest, path =>
      (verdict? rest path).or
        (if event.path = path then some (event.kind != .deleted) else none)

theorem verdict?_cons (event : Event) (rest : List Event) (path : String) :
    verdict? (event :: rest) path = (verdict? rest path).or (verdict? [event] path) := by
  simp [verdict?]

theorem verdict?_eq_getLast? (events : List Event) (path : String) :
    verdict? events path = (kindsOf events path).getLast?.map (· != .deleted) := by
  induction events with
  | nil => rfl
  | cons event rest inductionHypothesis =>
      rw [verdict?, inductionHypothesis, ← List.singleton_append, kindsOf_append,
        List.getLast?_append, Option.map_or]
      by_cases same : event.path = path <;> simp [kindsOf, same]

theorem verdict?_coalesce (events : List Event) (path : String) :
    verdict? (coalesce events) path = verdict? events path := by
  rw [verdict?_eq_getLast?, verdict?_eq_getLast?, kindsOf_coalesce]
  split
  · next named =>
      obtain ⟨last, isLast⟩ := exists_getLast?_kindsOf named
      rw [isLast, List.getLast?_singleton, Option.map_some, Option.map_some,
        EventKind.outcome_ne_deleted isLast]
  · next unnamed => rw [kindsOf_eq_nil unnamed]

/-- A batch is about the files that were reported. -/
theorem mem_paths_coalesce {events : List Event} {path : String}
    (named : path ∈ (coalesce events).map (·.path)) : path ∈ events.map (·.path) := by
  rwa [paths_coalesce, List.mem_eraseDups] at named

end Event

namespace Model

/-! ## Paths that are known of after reports -/

/-- What is known of after reports is what they say, and what was known of before where they say
nothing. -/
theorem knows_foldl_apply {model : Model} (exact : model.catalog.Exact) (events : List Event)
    (indexable : ∀ event ∈ events, model.workspace.isIndexable event.path = true)
    (path : String) :
    (events.foldl apply model).catalog.Knows path ↔
      (Event.verdict? events path).elim (model.catalog.Knows path) (· = true) := by
  induction events generalizing model with
  | nil => exact Iff.rfl
  | cons event rest inductionHypothesis =>
      have later := inductionHypothesis (exact_perform exact (.apply event)) (by
        rw [(perform_frame model (.apply event)).1]
        exact fun other member => indexable other (List.mem_cons_of_mem event member))
      have once : (model.apply event).catalog.Knows path ↔
          (Event.verdict? [event] path).elim (model.catalog.Knows path) (· = true) := by
        rw [knows_apply exact]
        by_cases same : event.path = path
        · have accepted := same ▸ indexable event (by simp)
          by_cases deleted : event.kind = .deleted <;>
            simp [Event.verdict?, same, deleted, accepted]
        · by_cases deleted : event.kind = .deleted <;> simp [Event.verdict?, same, deleted]
      dsimp only [Action.perform] at later
      rw [List.foldl_cons, later, Event.verdict?_cons]
      cases Event.verdict? rest path with
      | none => exact once
      | some there => exact Iff.rfl

/-! ## Reports and files -/

theorem unreadable_apply (model : Model) (event : Event) (tree : FileTree) (path : String) :
    (model.apply event).Unreadable tree path ↔ model.Unreadable tree path := by
  have enabled : (model.apply event).catalog.enabled = model.catalog.enabled :=
    enabled_perform model (.apply event)
  unfold Unreadable
  rw [(apply_frame model event).1, enabled]

namespace Grounded

variable {tree : FileTree} {model : Model}

theorem apply (grounded : Grounded tree model) (exact : model.catalog.Exact) (event : Event)
    (there : model.workspace.isIndexable event.path = true →
      ¬ model.Unreadable tree event.path) : Grounded tree (model.apply event) := by
  have same := (apply_frame model event).1
  have readable : ∀ path, (model.apply event).catalog.Knows path →
      ¬ (model.apply event).Unreadable tree path := by
    intro path knows
    rw [unreadable_apply]
    have before := (knows_apply exact event path).mp knows
    split at before
    · exact grounded.readable path before.2
    · rcases before with ⟨rfl, indexable⟩ | earlier
      · exact there indexable
      · exact grounded.readable path earlier
  obtain ⟨kind, changed⟩ := event
  by_cases deleted : kind = .deleted
  · subst deleted
    have sets := Catalog.sets_removeFile model.catalog changed
    have kept : ∀ (path : String) (record : Record),
        (model.apply ⟨.deleted, changed⟩).catalog.records[path]? = some record →
          ¬ changed = path ∧ model.catalog.records[path]? = some record := by
      intro path record found
      dsimp only [Model.apply, removeFromViews] at found
      by_cases own : changed = path
      · rw [← own, sets.self] at found
        exact absurd found (by simp)
      · exact ⟨own, (sets.others path own).symm.trans found⟩
    refine ⟨readable, ?_, ?_⟩
    · rw [same]
      intro path record found recorded
      exact grounded.made path record found (kept path record recorded).2
    · rw [same]
      intro path record recorded
      obtain ⟨foreign, before⟩ := kept path record recorded
      exact (grounded.clean path record before).imp_left (sets.kept path foreign)
  · have noted : model.apply ⟨kind, changed⟩ =
        { model with
          catalog := model.catalog.note (model.workspace.isIndexable changed) changed } :=
      apply_of_there model deleted
    rw [noted] at readable ⊢
    refine ⟨readable, ?_, ?_⟩
    · intro path record found recorded
      rw [Catalog.records_note] at recorded
      exact grounded.made path record found recorded
    · intro path record recorded
      rw [Catalog.records_note] at recorded
      rw [Catalog.mem_dirty_note]
      exact (grounded.clean path record recorded).imp_left Or.inr

theorem foldl_apply (grounded : Grounded tree model) (exact : model.catalog.Exact)
    (events : List Event)
    (there : ∀ event ∈ events, ¬ model.Unreadable tree event.path) :
    Grounded tree (events.foldl Model.apply model) := by
  induction events generalizing model with
  | nil => exact grounded
  | cons event rest inductionHypothesis =>
      apply inductionHypothesis (grounded.apply exact event fun _ => there event (by simp))
        (exact_perform exact (.apply event))
      intro other member
      rw [unreadable_apply]
      exact there other (List.mem_cons_of_mem event member)

end Grounded

/-! ## Reports put together -/

section Reports

variable {workspace : Workspace} {config : Config} {origin : Origin} {actions : List Action}

/-- Reports are part of a history. -/
theorem foldl_apply_reached (events : List Event) :
    events.foldl apply (reached workspace config origin actions) =
      reached workspace config origin (actions ++ events.map .apply) := by
  rw [reached_append, List.foldl_map]
  rfl

/-- So is a run after them. -/
theorem reindex_foldl_apply_reached (events : List Event) (conditions : Conditions) :
    ((events.foldl apply (reached workspace config origin actions)).reindex conditions).2 =
      reached workspace config origin (actions ++ events.map .apply ++ [.reindex conditions]) := by
  rw [foldl_apply_reached, reached_append _ _ _ _ [.reindex conditions]]
  rfl

theorem brought_reports {events : List Event} {conditions : Conditions} {path : String}
    (brought : Brought workspace origin (actions ++ events.map .apply ++ [.reindex conditions])
      path) : Brought workspace origin actions path ∨ path ∈ events.map (·.path) := by
  rcases brought with opened | ⟨action, member, brings⟩
  · exact Or.inl (Or.inl opened)
  · rcases List.mem_append.mp member with history | run
    · rcases List.mem_append.mp history with earlier | report
      · exact Or.inl (Or.inr ⟨action, earlier, brings⟩)
      · obtain ⟨event, reported, rfl⟩ := List.mem_map.mp report
        exact Or.inr (List.mem_map.mpr ⟨event, reported, brings.1⟩)
    · rw [List.mem_singleton.mp run] at brings
      exact absurd brings id

/-- A model is grounded if its records were made from files and its clean records have the
fingerprints of the files as they are. -/
theorem grounded_reached {tree : FileTree}
    (readable : ∀ path, (reached workspace config origin actions).catalog.Knows path →
      (∃ bytes, workspace.read tree path = .ok bytes) ∨
        workspace.read tree path = .error .missing)
    (indexed : ∀ (path : String) (record : Record),
      (reached workspace config origin actions).catalog.records[path]? = some record →
      ∃ bytes time, record = Record.ofBytes path bytes time ∧
        ∀ found, workspace.read tree path = .ok found → fingerprint bytes = fingerprint found →
          bytes = found)
    (clean : ∀ (path : String) (record : Record),
      (reached workspace config origin actions).catalog.records[path]? = some record →
      (reached workspace config origin actions).isStale path = false →
      ∃ found, workspace.read tree path = .ok found ∧ record.fingerprint = fingerprint found) :
    Grounded tree (reached workspace config origin actions) := by
  have on := enabled_reached workspace config origin actions true
  have same := (reached_frame workspace config origin actions true).1
  have known := fun path => @brought_of_knows workspace config origin actions true path
  have dated := dated_reached workspace config origin actions true
  generalize reached workspace config origin actions = start at *
  constructor
  case readable =>
    intro path knows
    apply readable_of_read on (known path knows).indexable
    rw [same]
    exact readable path knows
  case made =>
    intro path record found recorded read equal
    rw [same] at read
    obtain ⟨bytes, time, rfl, distinct⟩ := indexed path record recorded
    rw [Record.fingerprint_ofBytes] at equal
    rw [Record.undated_ofBytes, distinct found read equal]
  case clean =>
    intro path record recorded
    rw [same]
    by_cases dirty : path ∈ start.catalog.staleness.dirty
    · exact Or.inl dirty
    · have present : path ∈ start.catalog.records := by
        rw [Catalog.mem_records_iff, recorded]
        rfl
      have since := (dated path present).resolve_left dirty
      right
      exact clean path record recorded ((Staleness.isStale_eq_false _ path).mpr ⟨dirty, since⟩)

/-- What a run after reports comes to. -/
theorem undatedAt_reports {tree : FileTree}
    (grounded : Grounded tree (reached workspace config origin actions)) {events : List Event}
    (indexable : ∀ path ∈ events.map (·.path), workspace.isIndexable path = true)
    (readable : ∀ path ∈ events.map (·.path),
      ¬ (reached workspace config origin actions).Unreadable tree path)
    (now : Timestamp) :
    ((events.foldl apply (reached workspace config origin actions)).reindex
      { tree := tree, now := now }).2.catalog.listStale = [] ∧
    ∀ path,
      ((Event.verdict? events path).elim
          ((reached workspace config origin actions).catalog.Knows path) (· = true) →
        ((events.foldl apply (reached workspace config origin actions)).reindex
          { tree := tree, now := now }).2.undatedAt path =
            workspace.renewal tree path 0 none) ∧
      (¬ (Event.verdict? events path).elim
          ((reached workspace config origin actions).catalog.Knows path) (· = true) →
        ((events.foldl apply (reached workspace config origin actions)).reindex
          { tree := tree, now := now }).2.undatedAt path = none) := by
  have exact := exact_reached workspace config origin actions true
  have exactAfter := exact_reached workspace config origin (actions ++ events.map .apply) true
  have sameAfter :=
    (reached_frame workspace config origin (actions ++ events.map .apply) true).1
  rw [← foldl_apply_reached] at exactAfter sameAfter
  have same := (reached_frame workspace config origin actions true).1
  generalize reached workspace config origin actions = start at *
  have after := grounded.foldl_apply exact events fun event member =>
    readable event.path (List.mem_map_of_mem member)
  refine ⟨after.listStale_reindex exactAfter now, fun path => ?_⟩
  have records := after.undatedAt_reindex exactAfter now path
  rw [sameAfter, knows_foldl_apply exact events (by
    rw [same]
    exact fun event member => indexable event.path (List.mem_map_of_mem member))] at records
  exact records

/-- Take a model whose records were made from files, and whose clean records have the fingerprints
of the files as they are. Reports of files to be indexed can be applied one by one or as the batch
that they are put together in: after a run nothing is stale, and the models agree. Everything that
is known of or reported has to be readable or gone, with a plain path. -/
theorem coalesce_agrees {events : List Event} {tree : FileTree} (now later : Timestamp)
    (plain : ∀ path, Brought workspace origin actions path → Plain path)
    (reported : ∀ event ∈ events,
      workspace.isIndexable event.path = true ∧ Plain event.path)
    (readable : ∀ path, (reached workspace config origin actions).catalog.Knows path ∨
        path ∈ events.map (·.path) →
      (∃ bytes, workspace.read tree path = .ok bytes) ∨
        workspace.read tree path = .error .missing)
    (indexed : ∀ (path : String) (record : Record),
      (reached workspace config origin actions).catalog.records[path]? = some record →
      ∃ bytes time, record = Record.ofBytes path bytes time ∧
        ∀ found, workspace.read tree path = .ok found → fingerprint bytes = fingerprint found →
          bytes = found)
    (clean : ∀ (path : String) (record : Record),
      (reached workspace config origin actions).catalog.records[path]? = some record →
      (reached workspace config origin actions).isStale path = false →
      ∃ found, workspace.read tree path = .ok found ∧ record.fingerprint = fingerprint found) :
    let start := reached workspace config origin actions
    let batched := (((Event.coalesce events).foldl apply start).reindex
      { tree := tree, now := now }).2
    let single := ((events.foldl apply start).reindex { tree := tree, now := later }).2
    batched.catalog.listStale = [] ∧ single.catalog.listStale = [] ∧ batched.Agrees single := by
  intro start batched single
  have grounded : Grounded tree start :=
    grounded_reached (fun path knows => readable path (Or.inl knows)) indexed clean
  have named : ∀ path ∈ events.map (·.path), workspace.isIndexable path = true ∧ Plain path := by
    intro path member
    obtain ⟨event, isReported, rfl⟩ := List.mem_map.mp member
    exact reported event isReported
  have accessible : ∀ path ∈ events.map (·.path), ¬ start.Unreadable tree path := by
    intro path member
    have indexable := (named path member).1
    simp only [Workspace.isIndexable, Bool.and_eq_true] at indexable
    apply readable_of_read (enabled_reached workspace config origin actions true) indexable.1.1
    rw [(reached_frame workspace config origin actions true).1]
    exact readable path (Or.inr member)
  have drawn : ∀ (reports : List Event) (conditions : Conditions),
      (∀ path ∈ reports.map (·.path), path ∈ events.map (·.path)) →
        ((reports.foldl apply start).reindex conditions).2.Drawn := by
    intro reports conditions among
    rw [reindex_foldl_apply_reached]
    apply drawn_reached
    intro path brought
    rcases brought_reports brought with earlier | report
    · exact plain path earlier
    · exact (named path (among path report)).2
  have aligned : ∀ (reports : List Event) (conditions : Conditions),
      ((reports.foldl apply start).reindex conditions).2.Aligned := by
    intro reports conditions
    rw [reindex_foldl_apply_reached]
    exact aligned_reached _ _ _ _ _
  have sameConfig : ∀ (reports : List Event) (conditions : Conditions),
      ((reports.foldl apply start).reindex conditions).2.config = config := by
    intro reports conditions
    rw [reindex_foldl_apply_reached]
    exact (reached_frame _ _ _ _ _).2
  have among : ∀ path ∈ (Event.coalesce events).map (·.path), path ∈ events.map (·.path) :=
    fun path => Event.mem_paths_coalesce
  obtain ⟨batchedSettled, batchedRecords⟩ := undatedAt_reports grounded
    (fun path member => (named path (among path member)).1)
    (fun path member => accessible path (among path member)) now
  obtain ⟨singleSettled, singleRecords⟩ := undatedAt_reports grounded
    (fun path member => (named path member).1) accessible later
  refine ⟨batchedSettled, singleSettled, ?_⟩
  apply agrees_of_undated (aligned _ _) (aligned _ _) (drawn _ _ among) (drawn _ _ fun _ => id)
  · rw [sameConfig, sameConfig]
  · intro path
    have batchedAt := batchedRecords path
    rw [Event.verdict?_coalesce] at batchedAt
    by_cases known : (Event.verdict? events path).elim (start.catalog.Knows path) (· = true)
    · exact (batchedAt.1 known).trans ((singleRecords path).1 known).symm
    · exact (batchedAt.2 known).trans ((singleRecords path).2 known).symm

end Reports

end Model

/-! ## Models that follow the files -/

namespace LiveModel

namespace Tracks

variable {workspace : Workspace} {config : Config} {known : String → ByteArray → Prop}
  {live : LiveModel} {path : String} (tracks : Tracks workspace config known live)

include tracks

theorem exists_read (small : ∀ path file, workspace.Admits live.tree path file →
      file.bytes.size ≤ workspace.maxFileSize)
    (knows : live.model.catalog.Knows path) :
    ∃ bytes, workspace.read live.tree path = .ok bytes := by
  have present : ∃ file, workspace.Admits live.tree path file := by
    rcases knows with dirty | recorded
    · exact tracks.stale path dirty
    · obtain ⟨record, found⟩ :=
        Option.isSome_iff_exists.mp ((Catalog.mem_records_iff _ _).mp recorded)
      exact (tracks.recorded path record found).1
  obtain ⟨file, admitted⟩ := present
  exact ⟨file.bytes, (Workspace.read_eq_ok _).mpr
    ⟨file, admitted.found, small path file admitted, rfl⟩⟩

theorem exists_ofBytes (discernible : Discernible known) {record : Record}
    (recorded : live.model.catalog.records[path]? = some record) :
    ∃ bytes time, record = Record.ofBytes path bytes time ∧
      ∀ found, workspace.read live.tree path = .ok found →
        fingerprint bytes = fingerprint found → bytes = found := by
  obtain ⟨⟨file, admitted⟩, bytes, time, bytesKnown, made⟩ := tracks.recorded path record recorded
  refine ⟨bytes, time, made, fun found read => ?_⟩
  obtain ⟨other, otherFound, _, rfl⟩ := (Workspace.read_eq_ok _).mp read
  have sameFile := Option.some.inj (otherFound.symm.trans admitted.found)
  rw [sameFile]
  exact discernible.distinct path bytes file.bytes bytesKnown (tracks.files path file admitted)

theorem exists_current (small : ∀ path file, workspace.Admits live.tree path file →
      file.bytes.size ≤ workspace.maxFileSize) {record : Record}
    (recorded : live.model.catalog.records[path]? = some record)
    (fresh : live.model.isStale path = false) :
    ∃ found, workspace.read live.tree path = .ok found ∧
      record.fingerprint = fingerprint found := by
  obtain ⟨file, admitted⟩ := (tracks.recorded path record recorded).1
  have clean := ((Staleness.isStale_eq_false _ path).mp fresh).1
  obtain ⟨time, made⟩ :=
    (tracks.inStep path file admitted (small path file admitted)).resolve_left clean
  have isMade := Option.some.inj (recorded.symm.trans made)
  refine ⟨file.bytes, ?_, ?_⟩
  · exact (Workspace.read_eq_ok _).mpr ⟨file, admitted.found, small path file admitted, rfl⟩
  · rw [isMade, Record.fingerprint_ofBytes]

end Tracks

/-- One file is deleted and made again, another one is changed, and a third one comes and goes. -/
def sampleReports : List Event :=
  [{ kind := .deleted, path := "b.ts" }, { kind := .changed, path := "a.ts" },
    { kind := .created, path := "b.ts" }, { kind := .created, path := "c.ts" },
    { kind := .changed, path := "b.ts" }, { kind := .deleted, path := "c.ts" }]

/-- Two files are indexed, and then one of them is changed. -/
def sampleActions : List Model.Action :=
  [.reindex { tree := extendedTree, now := 1 }, .apply { kind := .changed, path := "a.ts" }]

/-- What the files of a short history held at any moment. -/
def sampleKnown (path : String) (bytes : ByteArray) : Prop :=
  ∃ tree ∈ sampleTrees, ∃ file, sampleWorkspace.Admits tree path file ∧ file.bytes = bytes

theorem discernible_sampleKnown : Discernible sampleKnown where
  plain := by
    rintro path _ ⟨tree, member, file, admitted, rfl⟩
    exact (listed_sampleTrees tree member _ (mem_filesIn_of_admits member admitted)).2.2
  distinct := by
    rintro path _ _ ⟨left, leftIn, leftFile, leftAdmitted, rfl⟩
      ⟨right, rightIn, rightFile, rightAdmitted, rfl⟩
    exact distinct_sampleTrees left leftIn right rightIn
      (path, leftFile) (mem_filesIn_of_admits leftIn leftAdmitted)
      (path, rightFile) (mem_filesIn_of_admits rightIn rightAdmitted)

theorem tracks_sampleActions :
    Tracks sampleWorkspace sampleConfig sampleKnown
      { tree := changedTree
        model := Model.reached sampleWorkspace sampleConfig (.kept {} extendedTree)
          sampleActions } := by
  have rooted := Workspace.rooted_of_make make_sampleTree
  have first : sampleWorkspace.relative? "a.ts" = some "a.ts" := by decide +kernel
  have extendedIn : extendedTree ∈ sampleTrees := by simp [sampleTrees]
  have changedIn : changedTree ∈ sampleTrees := by simp [sampleTrees]
  have files : ∀ tree ∈ sampleTrees, ∀ path file, sampleWorkspace.Admits tree path file →
      sampleKnown path file.bytes :=
    fun tree member path file admitted => ⟨tree, member, file, admitted, rfl⟩
  have opened : Tracks sampleWorkspace sampleConfig sampleKnown
      (fresh sampleWorkspace sampleConfig extendedTree) := by
    apply Tracks.fresh sampleConfig rooted (wellFormed_sampleTrees _ extendedIn)
      (files _ extendedIn)
    intro path file admitted _
    exact (listed_sampleTrees _ extendedIn _ (mem_filesIn_of_admits extendedIn admitted)).1
  have there : ¬ EventKind.changed = .deleted := by decide
  exact (opened.reindexed discernible_sampleKnown 1).write rooted first there
    write?_extendedTree (files _ changedIn)

theorem sampleReports_agree :
    Event.coalesce sampleReports =
        [{ kind := .created, path := "b.ts" }, { kind := .changed, path := "a.ts" },
          { kind := .deleted, path := "c.ts" }] ∧
      let start := Model.reached sampleWorkspace sampleConfig (.kept {} extendedTree) sampleActions
      let batched := (((Event.coalesce sampleReports).foldl Model.apply start).reindex
        { tree := changedTree, now := 2 }).2
      let single := ((sampleReports.foldl Model.apply start).reindex
        { tree := changedTree, now := 3 }).2
      batched.catalog.listStale = [] ∧ single.catalog.listStale = [] ∧
        batched.Agrees single := by
  have tracks := tracks_sampleActions
  have changedIn : changedTree ∈ sampleTrees := by simp [sampleTrees]
  have small : ∀ path file, sampleWorkspace.Admits changedTree path file →
      file.bytes.size ≤ sampleWorkspace.maxFileSize := by
    intro path file admitted
    exact (listed_sampleTrees _ changedIn _ (mem_filesIn_of_admits changedIn admitted)).2.1
  have plainFiles : ∀ path ∈ sampleWorkspace.listFiles extendedTree, Plain path := by
    decide +kernel
  have plainReports : ∀ event ∈ sampleReports,
      sampleWorkspace.isIndexable event.path = true ∧ Plain event.path := by
    decide +kernel
  have there : ∀ path ∈ sampleReports.map (·.path),
      ((sampleWorkspace.read changedTree path).tryCatch fun reason =>
        if reason = .missing then .ok ByteArray.empty else .error reason).toOption.isSome := by
    decide +kernel
  refine ⟨by decide, Model.coalesce_agrees 2 3 ?_ plainReports ?_
    (fun path record => tracks.exists_ofBytes discernible_sampleKnown)
    (fun path record => tracks.exists_current small)⟩
  · rintro path (opened | ⟨action, member, brings⟩)
    · exact plainFiles path opened
    · rcases List.mem_cons.mp member with rfl | later
      · exact absurd brings id
      · rw [List.mem_singleton.mp later] at brings
        rw [← brings.1]
        decide
  · rintro path (knows | reported)
    · exact Or.inl (tracks.exists_read small knows)
    · have found := there path reported
      cases read : sampleWorkspace.read changedTree path with
      | ok bytes => exact Or.inl ⟨bytes, rfl⟩
      | error reason =>
          by_cases gone : reason = .missing
          · rw [gone]
            exact Or.inr rfl
          · rw [read] at found
            change (if reason = .missing then Except.ok ByteArray.empty
              else .error reason).toOption.isSome = true at found
            rw [if_neg gone] at found
            exact absurd found (by simp [Except.toOption])

end LiveModel

end CodeIndex
