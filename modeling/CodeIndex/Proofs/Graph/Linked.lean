import CodeIndex.Proofs.Graph.Resolution

/-!
Contract: the edges of a graph are the calls of its files, after every change.

Owns:
- `Graph.Presents`: a graph with its edges is a view of files' contents;
- `Graph.Presents.update`, `Graph.Presents.remove`: one change keeps it so;
- `Graph.Presents.unique`: the files and the limit determine the whole graph;
- `Graph.filesOf`: the contents of the files that records are about.

A change of one file alters the edges of that file and of the files that depend on it, before or
after the change. All other edges are kept: they lead where they led.
-/

set_option autoImplicit false

namespace CodeIndex.Graph

/-! ## A view with edges -/

/-- The edges from a key are what its calls lead to. -/
def Linked (graph : Graph) : Prop :=
  ∀ caller callee, callee ∈ graph.callees.values caller ↔
    callee ∈ graph.targets (ownerOf caller) caller

/-- A graph is a view of the contents of files: nothing is missing, and nothing is left over. -/
structure Presents (graph : Graph) (files : String → Option Contents) : Prop where
  shows : Shows graph files
  tidy : graph.Tidy
  mirrored : graph.Mirrored
  linked : graph.Linked

theorem Shows.congr_bare {left right : Graph} {files : String → Option Contents}
    (same : left.bare = right.bare) (shows : Shows left files) : Shows right files := by
  have bare : Shows right.bare files := by
    rw [← same]
    exact ⟨shows.plain, fun path =>
      let shown := shows.file path
      ⟨⟨shown.declares.definitions, shown.declares.byName, shown.declares.rawCalls,
        shown.declares.calledNames⟩, shown.byFile, shown.imports, shown.exports, shown.importers,
        shown.filesByStem⟩⟩
  exact ⟨bare.plain, fun path =>
    let shown := bare.file path
    ⟨⟨shown.declares.definitions, shown.declares.byName, shown.declares.rawCalls,
      shown.declares.calledNames⟩, shown.byFile, shown.imports, shown.exports, shown.importers,
      shown.filesByStem⟩⟩

theorem Tidy.congr_bare {left right : Graph} (same : left.bare = right.bare) (tidy : left.Tidy) :
    right.Tidy := by
  have bare : right.bare.Tidy := by
    rw [← same]
    exact ⟨tidy.byName, tidy.filesByStem, tidy.importers, tidy.calledNames⟩
  exact ⟨bare.byName, bare.filesByStem, bare.importers, bare.calledNames⟩

theorem Presents.empty (limit : Nat) : Presents (Graph.empty limit) fun _ => none where
  shows := Shows.empty limit
  tidy := Tidy.empty limit
  mirrored := by
    refine ⟨?_, Multimap.tidy_empty, Multimap.tidy_empty⟩
    intro caller callee
    simp [Graph.empty]
  linked := by
    intro caller callee
    simp [Graph.empty, targets]

/-- The files and the limit determine the graph. -/
theorem Presents.unique {left right : Graph} {files : String → Option Contents}
    (leftPresents : Presents left files) (rightPresents : Presents right files)
    (limits : left.fallbackLimit = right.fallbackLimit) : left = right := by
  have same : left.bare = right.bare :=
    leftPresents.shows.bare_eq rightPresents.shows leftPresents.tidy rightPresents.tidy limits
  have edges : ∀ caller callee, callee ∈ left.callees.values caller ↔
      callee ∈ right.callees.values caller := by
    intro caller callee
    rw [leftPresents.linked, rightPresents.linked, targets_eq_of_bare same]
  have callees : left.callees = right.callees :=
    Multimap.ext_of_tidy leftPresents.mirrored.calleesTidy rightPresents.mirrored.calleesTidy edges
  have callers : left.callers = right.callers := by
    apply Multimap.ext_of_tidy leftPresents.mirrored.callersTidy
      rightPresents.mirrored.callersTidy
    intro callee caller
    rw [leftPresents.mirrored.agree, rightPresents.mirrored.agree, edges]
  calc left
      = { left.bare with callees := left.callees, callers := left.callers } := rfl
    _ = { right.bare with callees := right.callees, callers := right.callers } := by
        rw [same, callees, callers]
    _ = right := rfl

/-! ## Edges that a change keeps -/

/-- A key without calls leads nowhere. -/
theorem targets_eq_nil {graph : Graph} {path caller : String}
    (silent : graph.rawCalls.getD caller [] = []) : graph.targets path caller = [] := by
  simp [targets, silent]

theorem Shows.targets_eq_nil {graph : Graph} {files : String → Option Contents}
    (shows : Shows graph files) {caller : String} (path : String)
    (unknown : ¬ caller ∈ graph.keysIn (ownerOf caller)) : graph.targets path caller = [] := by
  apply Graph.targets_eq_nil
  apply List.eq_nil_iff_forall_not_mem.mpr
  intro name called
  exact unknown (shows.mem_keysIn_of_mem_rawCalls called)

theorem mem_targets (graph : Graph) (path caller callee : String) :
    callee ∈ graph.targets path caller ↔
      ∃ name ∈ graph.rawCalls.getD caller [], callee ∈ graph.resolveCall path name := by
  simp [targets]

namespace DifferAt

variable {path : String} {before after : Graph} {old new : String → Option Contents}

/-- The calls of an unaffected file do not lead to the changed file. -/
theorem not_ownerOf_of_mem_resolveCall (differ : DifferAt path before after old new)
    {caller name key : String} (different : ¬ path = caller)
    (unaffected : ¬ caller ∈ before.dependents path)
    (called : caller ∈ before.calledNames.values name)
    (found : key ∈ before.resolveCall caller name) : ¬ path = ownerOf key := by
  intro owned
  cases (differ.showsOld.mem_resolveCall caller name key).mp found with
  | own target =>
      obtain ⟨definition, defined, _, home⟩ := target
      have owner := (differ.showsOld.definition_spec defined).1
      exact different (owned.trans (owner.symm.trans home))
  | imported _ target =>
      obtain ⟨earlier, statement, later, split, leadsTo, _⟩ := target
      obtain ⟨exported, stem, file, _, _, leads, offered, _⟩ := leadsTo
      obtain ⟨_, reached, definition, defined, home, _⟩ := offered
      have member : statement ∈ before.imports.getD caller [] := by
        change statement ∈ before.importsOf caller
        simp [split]
      have changed : file = path := by
        rw [← home, (differ.showsOld.definition_spec defined).1, owned]
      exact differ.not_mem_fileStems unaffected member leads (changed ▸ reached)
  | anywhere _ _ target _ =>
      exact differ.not_mem_byName unaffected called owned
        ((differ.showsOld.mem_byName name key).mpr target)

/-- An unaffected key leads where it led. -/
theorem mem_targets_iff (differ : DifferAt path before after old new) {caller callee : String}
    (different : ¬ path = ownerOf caller)
    (unaffected : ¬ ownerOf caller ∈ before.dependents path)
    (stillUnaffected : ¬ ownerOf caller ∈ after.dependents path) :
    callee ∈ after.targets (ownerOf caller) caller ↔
      callee ∈ before.targets (ownerOf caller) caller := by
  rw [mem_targets, mem_targets, ← differ.rawCalls different]
  refine exists_congr fun name => and_congr_right fun written => ?_
  have called := differ.showsOld.mem_calledNames written
  rw [differ.resolveCall_eq different unaffected stillUnaffected called]

theorem not_mem_keysIn_of_mem_targets (differ : DifferAt path before after old new)
    {caller callee : String} (different : ¬ path = ownerOf caller)
    (unaffected : ¬ ownerOf caller ∈ before.dependents path)
    (target : callee ∈ before.targets (ownerOf caller) caller) :
    ¬ callee ∈ before.keysIn path := by
  obtain ⟨name, written, found⟩ := (mem_targets _ _ _ _).mp target
  have called := differ.showsOld.mem_calledNames written
  intro key
  exact differ.not_ownerOf_of_mem_resolveCall different unaffected called found
    (differ.showsOld.ownerOf_of_mem_keysIn key).symm

/-! ## One change -/

/-- The edges that are kept are those that touch no old definition of the changed file. -/
def Keeps (path : String) (before after : Graph) : Prop :=
  ∀ caller callee, callee ∈ after.callees.values caller ↔
    (¬ caller ∈ before.keysIn path ∧ ¬ callee ∈ before.keysIn path) ∧
      callee ∈ before.callees.values caller

/-- No edge from the changed file is kept. -/
theorem not_mem_callees_of_own (differ : DifferAt path before after old new)
    (linked : before.Linked) (kept : Keeps path before after) {caller : String}
    (own : path = ownerOf caller) (callee : String) :
    ¬ callee ∈ after.callees.values caller := by
  intro edge
  obtain ⟨⟨notMine, _⟩, wasEdge⟩ := (kept caller callee).mp edge
  rw [own] at notMine
  rw [linked, differ.showsOld.targets_eq_nil _ notMine] at wasEdge
  exact absurd wasEdge (by simp)

/-- The edges that are kept from another file are right, if the file is not affected or the key is
none of its definitions. -/
theorem mem_callees_of_other (differ : DifferAt path before after old new)
    (linked : before.Linked) (kept : Keeps path before after) {caller : String}
    (different : ¬ path = ownerOf caller)
    (unaffected : caller ∈ after.keysIn (ownerOf caller) →
      ¬ ownerOf caller ∈ before.dependents path ∧ ¬ ownerOf caller ∈ after.dependents path)
    (callee : String) :
    callee ∈ after.callees.values caller ↔ callee ∈ after.targets (ownerOf caller) caller := by
  rw [kept, linked]
  by_cases mine : caller ∈ after.keysIn (ownerOf caller)
  · obtain ⟨notBefore, notAfter⟩ := unaffected mine
    rw [differ.mem_targets_iff different notBefore notAfter]
    have notThere : ¬ caller ∈ before.keysIn path := fun key =>
      different (differ.showsOld.ownerOf_of_mem_keysIn key).symm
    constructor
    · exact fun both => both.2
    · intro target
      exact ⟨⟨notThere, differ.not_mem_keysIn_of_mem_targets different notBefore target⟩, target⟩
  · have silent := differ.showsNew.targets_eq_nil (ownerOf caller) mine
    have wasSilent : before.targets (ownerOf caller) caller = [] := by
      apply differ.showsOld.targets_eq_nil
      rw [(differ.showsOld.file _).keysIn, differ.same _ different,
        ← (differ.showsNew.file _).keysIn]
      exact mine
    simp [silent, wasSilent]

/-- One change: the edges that touch the changed file are gone, its own are made, and those of the
affected files are made anew. -/
theorem linked (differ : DifferAt path before after old new) (linked : before.Linked)
    (kept : Keeps path before after) {affected : List String}
    (covered : ∀ other, ¬ path = other →
      other ∈ before.dependents path ∨ other ∈ after.dependents path → other ∈ affected) :
    ((after.linkFile path).relinkFiles affected).Linked := by
  intro caller callee
  have sameBare : (after.linkFile path).bare = after.bare := bare_linkFile after path
  have finalBare : ((after.linkFile path).relinkFiles affected).bare = after.bare := by
    rw [bare_relinkFiles, sameBare]
  rw [targets_eq_of_bare finalBare]
  -- A key is relinked if it is a definition of its owner and the owner is affected.
  by_cases relinked : ownerOf caller ∈ affected ∧ caller ∈ after.keysIn (ownerOf caller)
  · obtain ⟨listed, mine⟩ := relinked
    rw [mem_callees_relinkFiles_of_mem _ _ (ownerOf caller) caller callee listed
      (keysIn_eq_of_bare sameBare (ownerOf caller) ▸ mine), targets_eq_of_bare sameBare]
    intro other key
    rw [keysIn_eq_of_bare sameBare] at key
    exact (differ.showsNew.ownerOf_of_mem_keysIn key).symm
  · have untouched : ∀ other ∈ affected, ¬ caller ∈ (after.linkFile path).keysIn other := by
      intro other listed key
      rw [keysIn_eq_of_bare sameBare] at key
      have owner := differ.showsNew.ownerOf_of_mem_keysIn key
      exact relinked ⟨owner ▸ listed, owner ▸ key⟩
    rw [mem_callees_relinkFiles_of_not_mem _ _ _ _ untouched, mem_callees_linkFile]
    by_cases own : path = ownerOf caller
    · have noneKept := differ.not_mem_callees_of_own linked kept own callee
      by_cases mine : caller ∈ after.keysIn (ownerOf caller)
      · simp [noneKept, own, mine]
      · simp [noneKept, own, mine, differ.showsNew.targets_eq_nil _ mine]
    · have notHere : ¬ caller ∈ after.keysIn path := fun key =>
        own (differ.showsNew.ownerOf_of_mem_keysIn key).symm
      rw [differ.mem_callees_of_other linked kept own]
      · simp [notHere]
      · intro mine
        exact ⟨fun depends => relinked ⟨covered _ own (Or.inl depends), mine⟩,
          fun depends => relinked ⟨covered _ own (Or.inr depends), mine⟩⟩

end DifferAt

theorem fallbackLimit_teardown (graph : Graph) (path : String) :
    (graph.teardown path).fallbackLimit = graph.fallbackLimit := by
  obtain ⟨_, _, _, _, _, _, frame⟩ := foldl_teardownKey_frame path (graph.keysIn path) graph
  rw [teardown_eq, withoutKeys, frame]

theorem insert_edges (graph : Graph) (record : Record) :
    (graph.insert record).callees = graph.callees ∧
      (graph.insert record).callers = graph.callers ∧
      (graph.insert record).fallbackLimit = graph.fallbackLimit := by
  obtain ⟨_, _, _, _, _, _, inserted⟩ := insert_eq graph record
  rw [inserted]
  exact ⟨rfl, rfl, rfl⟩

namespace Presents

variable {graph : Graph} {files : String → Option Contents}

/-- A changed file, linked, with the files that depend on it. -/
theorem relink {path : String} {after : Graph} {new : String → Option Contents}
    (presents : Presents graph files) (differ : DifferAt path graph after files new)
    (tidy : after.Tidy) (mirrored : after.Mirrored) (kept : DifferAt.Keeps path graph after)
    {affected : List String}
    (covered : ∀ other, ¬ path = other →
      other ∈ graph.dependents path ∨ other ∈ after.dependents path → other ∈ affected) :
    Presents ((after.linkFile path).relinkFiles affected) new where
  shows := by
    apply differ.showsNew.congr_bare
    rw [bare_relinkFiles, bare_linkFile]
  tidy := by
    apply tidy.congr_bare
    rw [bare_relinkFiles, bare_linkFile]
  mirrored := (mirrored.linkFile path).relinkFiles affected
  linked := differ.linked presents.linked kept covered

theorem update (presents : Presents graph files) {record : Record} (plain : Plain record.path) :
    Presents (graph.update record)
      (setFile files record.path (some (Contents.ofRecord record))) := by
  have torn := presents.mirrored.teardown record.path
  obtain ⟨callees, callers, limit⟩ := insert_edges (graph.teardown record.path) record
  have differ : DifferAt record.path graph ((graph.teardown record.path).insert record) files
      (setFile files record.path (some (Contents.ofRecord record))) :=
    { showsOld := presents.shows
      showsNew := presents.shows.replace plain
      same := fun other different => (setFile_other files _ different).symm
      limits := by rw [limit, fallbackLimit_teardown] }
  apply presents.relink differ
  · exact (presents.tidy.teardown record.path).insert record
  · refine ⟨?_, callees ▸ torn.calleesTidy, callers ▸ torn.callersTidy⟩
    rw [callees, callers]
    exact torn.agree
  · intro caller callee
    rw [callees]
    exact mem_callees_teardown presents.mirrored record.path caller callee
  · intro other different depends
    simp only [Std.ExtTreeSet.mem_toList, Std.ExtTreeSet.mem_erase, Std.ExtTreeSet.mem_ofList,
      List.contains_iff_mem, List.mem_append]
    exact ⟨by simpa using different, depends⟩

theorem remove (presents : Presents graph files) (path : String) :
    Presents (graph.remove path) (setFile files path none) := by
  unfold Graph.remove
  by_cases present : graph.containsFile path = true
  · rw [if_pos present]
    have plain : Plain path :=
      presents.shows.plain path ((presents.shows.containsFile_iff path).mp present)
    have shows := presents.shows.teardown plain
    have noKeys : (graph.teardown path).keysIn path = [] := by
      rw [(shows.file path).keysIn, setFile_self]
      rfl
    have unlinked : (graph.teardown path).linkFile path = graph.teardown path := by
      rw [linkFile, noKeys]
      rfl
    have differ : DifferAt path graph (graph.teardown path) files (setFile files path none) :=
      { showsOld := presents.shows
        showsNew := shows
        same := fun other different => (setFile_other files _ different).symm
        limits := (fallbackLimit_teardown graph path).symm }
    rw [← unlinked]
    apply presents.relink differ (presents.tidy.teardown path) (presents.mirrored.teardown path)
    · exact mem_callees_teardown presents.mirrored path
    · intro other different depends
      simp only [Std.ExtTreeSet.mem_toList, Std.ExtTreeSet.mem_erase]
      refine ⟨by simpa using different, ?_⟩
      rcases depends with depended | depends
      · exact depended
      · rw [mem_dependents] at depends ⊢
        rcases depends with ⟨name, named, _⟩ | ⟨stem, leads, imports⟩
        · simp [namesIn, noKeys] at named
        · exact Or.inr ⟨stem, leads, ((mem_importers_teardown graph path stem other).mp imports).2⟩
  · rw [if_neg present]
    have absent : files path = none := by
      rw [← Option.not_isSome_iff_eq_none, ← presents.shows.containsFile_iff]
      exact present
    rw [setFile_eq_self absent]
    exact presents

end Presents

/-! ## The limit -/

theorem fallbackLimit_eq_of_bare {left right : Graph} (same : left.bare = right.bare) :
    left.fallbackLimit = right.fallbackLimit := by
  have limits : left.bare.fallbackLimit = right.bare.fallbackLimit := by
    rw [same]
  exact limits

theorem fallbackLimit_relinkFiles (graph : Graph) (affected : List String) :
    (graph.relinkFiles affected).fallbackLimit = graph.fallbackLimit :=
  fallbackLimit_eq_of_bare (bare_relinkFiles graph affected)

theorem fallbackLimit_update (graph : Graph) (record : Record) :
    (graph.update record).fallbackLimit = graph.fallbackLimit := by
  obtain ⟨_, _, limit⟩ := insert_edges (graph.teardown record.path) record
  have linked := bare_linkFile ((graph.teardown record.path).insert record) record.path
  rw [Graph.update, fallbackLimit_relinkFiles, fallbackLimit_eq_of_bare linked, limit,
    fallbackLimit_teardown]

theorem fallbackLimit_remove (graph : Graph) (path : String) :
    (graph.remove path).fallbackLimit = graph.fallbackLimit := by
  unfold Graph.remove
  split
  · rw [fallbackLimit_relinkFiles, fallbackLimit_teardown]
  · rfl

/-! ## Files of records -/

/-- The contents of the files that records are about. -/
def filesOf (records : Std.ExtTreeMap String Record) : String → Option Contents :=
  fun path => records[path]?.map Contents.ofRecord

theorem filesOf_empty : filesOf ∅ = fun _ => none := by
  funext path
  simp [filesOf]

theorem filesOf_set {before after : Std.ExtTreeMap String Record} {path : String}
    {record : Option Record} (self : after[path]? = record)
    (others : ∀ other, ¬ path = other → after[other]? = before[other]?) :
    filesOf after = setFile (filesOf before) path (record.map Contents.ofRecord) := by
  funext other
  by_cases same : path = other
  · simp [filesOf, ← same, self]
  · rw [setFile_other _ _ same, filesOf, filesOf, others other same]

theorem filesOf_insert (records : Std.ExtTreeMap String Record) (path : String) (record : Record) :
    filesOf (records.insert path record) =
      setFile (filesOf records) path (some (Contents.ofRecord record)) := by
  apply filesOf_set Std.ExtTreeMap.getElem?_insert_self
  intro other different
  simp [Std.ExtTreeMap.getElem?_insert, different]

theorem filesOf_erase (records : Std.ExtTreeMap String Record) (path : String) :
    filesOf (records.erase path) = setFile (filesOf records) path none := by
  apply filesOf_set Std.ExtTreeMap.getElem?_erase_self
  intro other different
  simp [Std.ExtTreeMap.getElem?_erase, different]

end CodeIndex.Graph
