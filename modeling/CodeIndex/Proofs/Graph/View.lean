import CodeIndex.Proofs.Graph.Teardown

/-!
Contract: a graph without its edges is a view of the files' contents.

Owns:
- `Graph.Shows`: every file is shown, and nothing else is;
- what this says about keys, names, stems and dependents;
- `Graph.Shows.insert`, `Graph.Shows.teardown`: files put in and taken out.
-/

set_option autoImplicit false

namespace CodeIndex.Graph

/-- The graph, apart from its edges, is a view of the contents of files. -/
structure Shows (graph : Graph) (files : String → Option Contents) : Prop where
  plain : ∀ path, (files path).isSome → Plain path
  file : ∀ path, ShowsFile graph path (files path)

namespace Shows

variable {graph : Graph} {files : String → Option Contents}

/-! ## Definitions -/

theorem getElem?_definitions (shows : Shows graph files) (key : String) :
    graph.definitions[key]? =
      declared? (ownerOf key) (Contents.entries (files (ownerOf key))) key :=
  (shows.file (ownerOf key)).declares.definitions key rfl

theorem mem_byName (shows : Shows graph files) (name key : String) :
    key ∈ graph.byName.values name ↔
      ∃ definition, graph.definitions[key]? = some definition ∧ definition.name = name := by
  rw [(shows.file (ownerOf key)).declares.byName name key rfl, shows.getElem?_definitions]

/-- A definition says where it belongs: its key is that of its path and its name. -/
theorem definition_spec (shows : Shows graph files) {key : String} {definition : Definition}
    (found : graph.definitions[key]? = some definition) :
    definition.path = ownerOf key ∧
      key = qualifiedKey definition.path definition.qualifiedName ∧
      (files definition.path).isSome := by
  rw [shows.getElem?_definitions] at found
  obtain ⟨entry, member, made, rfl⟩ := exists_of_declared? found
  refine ⟨rfl, made.symm, ?_⟩
  change (files (ownerOf key)).isSome
  cases present : files (ownerOf key) with
  | none => simp [present, Contents.entries] at member
  | some contents => rfl

theorem mem_keysIn (shows : Shows graph files) (path key : String) :
    key ∈ graph.keysIn path ↔
      ∃ definition, graph.definitions[key]? = some definition ∧ definition.path = path := by
  constructor
  · intro member
    have declared := (shows.file path).keysIn ▸ member
    obtain ⟨entry, written, rfl⟩ := (mem_declaredKeys _ _ _).mp declared
    have plain : Plain path := by
      apply shows.plain
      cases present : files path with
      | none => simp [present, Contents.entries] at written
      | some contents => rfl
    have owned := entry.ownerOf_key plain
    obtain ⟨definition, found⟩ := Option.isSome_iff_exists.mp
      ((mem_declaredKeys_iff_isSome _ _ _).mp declared)
    rw [← (shows.file path).declares.definitions _ owned] at found
    exact ⟨definition, found, (shows.definition_spec found).1.trans owned⟩
  · rintro ⟨definition, found, rfl⟩
    have owned := (shows.definition_spec found).1
    rw [(shows.file definition.path).keysIn, mem_declaredKeys_iff_isSome,
      ← (shows.file definition.path).declares.definitions key owned.symm, found]
    rfl

theorem ownerOf_of_mem_keysIn (shows : Shows graph files) {path key : String}
    (member : key ∈ graph.keysIn path) : ownerOf key = path := by
  obtain ⟨definition, found, rfl⟩ := (shows.mem_keysIn path key).mp member
  exact (shows.definition_spec found).1.symm

theorem mem_namesIn (shows : Shows graph files) (path name : String) :
    name ∈ graph.namesIn path ↔
      ∃ key, ownerOf key = path ∧ key ∈ graph.byName.values name := by
  simp only [namesIn, List.mem_filterMap, shows.mem_keysIn, Option.map_eq_some_iff,
    shows.mem_byName]
  constructor
  · rintro ⟨key, ⟨definition, found, rfl⟩, same, again, named⟩
    exact ⟨key, (shows.definition_spec found).1.symm, same, again, named⟩
  · rintro ⟨key, rfl, definition, found, named⟩
    exact ⟨key, ⟨definition, found, (shows.definition_spec found).1⟩, definition, found, named⟩

/-! ## Calls -/

/-- Only definitions call. -/
theorem mem_keysIn_of_mem_rawCalls (shows : Shows graph files) {key name : String}
    (called : name ∈ graph.rawCalls.getD key []) : key ∈ graph.keysIn (ownerOf key) := by
  have shown := shows.file (ownerOf key)
  rw [Std.ExtTreeMap.getD_eq_getD_getElem?, shown.declares.rawCalls key rfl] at called
  rw [shown.keysIn, mem_declaredKeys_iff_isSome]
  cases found : declared? (ownerOf key) (Contents.entries (files (ownerOf key))) key with
  | none => simp [declaredCalls?_eq_none found] at called
  | some definition => rfl

theorem mem_calledNames (shows : Shows graph files) {key name : String}
    (called : name ∈ graph.rawCalls.getD key []) :
    ownerOf key ∈ graph.calledNames.values name := by
  have shown := shows.file (ownerOf key)
  have member := shows.mem_keysIn_of_mem_rawCalls called
  rw [shown.declares.calledNames, ← exists_mem_declaredCalls? (ownerOf key)]
  refine ⟨key, shown.keysIn ▸ member, ?_⟩
  rwa [Std.ExtTreeMap.getD_eq_getD_getElem?, shown.declares.rawCalls key rfl] at called

/-! ## Files -/

theorem containsFile_iff (shows : Shows graph files) (path : String) :
    graph.containsFile path = true ↔ (files path).isSome := by
  rw [containsFile, Std.ExtTreeMap.contains_eq_isSome_getElem?, (shows.file path).byFile]
  simp

theorem mem_filesByStem (shows : Shows graph files) (stem path : String) :
    path ∈ graph.filesByStem.values stem ↔
      graph.containsFile path = true ∧ stem ∈ Specifier.fileStems path := by
  rw [(shows.file path).filesByStem, shows.containsFile_iff]

/-- A file is an importer of the stems that its imports lead to. -/
theorem mem_importers (shows : Shows graph files) {path stem : String} {statement : Import}
    (member : statement ∈ graph.imports.getD path [])
    (leads : Specifier.stem? path statement.source = some stem) :
    path ∈ graph.importers.values stem := by
  have shown := shows.file path
  rw [Std.ExtTreeMap.getD_eq_getD_getElem?, shown.imports] at member
  rw [shown.importers]
  cases present : files path with
  | none => simp [present] at member
  | some contents =>
      refine ⟨contents, rfl, List.mem_filterMap.mpr ⟨statement.source, ?_, leads⟩⟩
      simp only [present, Option.map_some, Option.getD_some] at member
      exact List.mem_append_left _ (List.mem_map.mpr ⟨statement, member, rfl⟩)

end Shows

theorem mem_dependents (graph : Graph) (path other : String) :
    other ∈ graph.dependents path ↔
      (∃ name ∈ graph.namesIn path, other ∈ graph.calledNames.values name) ∨
        ∃ stem ∈ Specifier.fileStems path, other ∈ graph.importers.values stem := by
  simp [dependents, Std.ExtTreeSet.mem_ofList]

/-! ## Changes of one file -/

/-- Files with other contents for one path. -/
def setFile (files : String → Option Contents) (path : String) (contents : Option Contents) :
    String → Option Contents :=
  fun other => if path = other then contents else files other

@[simp] theorem setFile_self (files : String → Option Contents) (path : String)
    (contents : Option Contents) : setFile files path contents path = contents := by
  simp [setFile]

theorem setFile_other (files : String → Option Contents) {path other : String}
    (contents : Option Contents) (different : ¬ path = other) :
    setFile files path contents other = files other := by
  simp [setFile, different]

theorem setFile_setFile (files : String → Option Contents) (path : String)
    (first second : Option Contents) :
    setFile (setFile files path first) path second = setFile files path second := by
  funext other
  by_cases same : path = other <;> simp [setFile, same]

theorem setFile_comm (files : String → Option Contents) {first second : String}
    (firstContents secondContents : Option Contents) (different : ¬ first = second) :
    setFile (setFile files first firstContents) second secondContents =
      setFile (setFile files second secondContents) first firstContents := by
  funext other
  unfold setFile
  by_cases isFirst : first = other
  · have notSecond : ¬ second = other := fun isSecond => different (isFirst.trans isSecond.symm)
    simp [isFirst, notSecond]
  · simp [isFirst]

theorem setFile_eq_self {files : String → Option Contents} {path : String}
    {contents : Option Contents} (same : files path = contents) :
    setFile files path contents = files := by
  funext other
  by_cases here : path = other
  · rw [← here, setFile_self, same]
  · exact setFile_other files contents here

namespace Shows

variable {graph : Graph} {files : String → Option Contents}

theorem empty (limit : Nat) : Shows (Graph.empty limit) fun _ => none where
  plain := by simp
  file := by
    intro path
    constructor
    case declares => constructor <;> simp [Graph.empty, Contents.entries, declared?, declaredCalls?,
      joinCalls]
    all_goals simp [Graph.empty]

theorem teardown (shows : Shows graph files) {path : String} (plain : Plain path) :
    Shows (graph.teardown path) (setFile files path none) where
  plain := by
    intro other present
    by_cases same : path = other
    · exact same ▸ plain
    · exact shows.plain other (setFile_other files none same ▸ present)
  file := by
    intro other
    by_cases same : path = other
    · subst same
      rw [setFile_self]
      exact (shows.file path).teardown_self plain
    · rw [setFile_other files none same]
      exact (shows.file path).teardown_other plain same (shows.file other)

theorem insert (shows : Shows graph files) {record : Record} (plain : Plain record.path)
    (absent : files record.path = none) :
    Shows (graph.insert record)
      (setFile files record.path (some (Contents.ofRecord record))) where
  plain := by
    intro other present
    by_cases same : record.path = other
    · exact same ▸ plain
    · exact shows.plain other (setFile_other files _ same ▸ present)
  file := by
    intro other
    by_cases same : record.path = other
    · subst same
      rw [setFile_self]
      exact (absent ▸ shows.file record.path).insert_self plain
    · rw [setFile_other files _ same]
      exact (shows.file other).insert_other plain same

/-- A file replaced by another version. -/
theorem replace (shows : Shows graph files) {record : Record} (plain : Plain record.path) :
    Shows ((graph.teardown record.path).insert record)
      (setFile files record.path (some (Contents.ofRecord record))) := by
  have inserted := (shows.teardown plain).insert plain (setFile_self files record.path none)
  rwa [setFile_setFile] at inserted

end Shows

/-! ## Tidiness -/

/-- The look-ups by name and by stem keep no empty set. -/
structure Tidy (graph : Graph) : Prop where
  byName : graph.byName.Tidy
  filesByStem : graph.filesByStem.Tidy
  importers : graph.importers.Tidy
  calledNames : graph.calledNames.Tidy

namespace Tidy

variable {graph : Graph}

theorem empty (limit : Nat) : (Graph.empty limit).Tidy :=
  ⟨Multimap.tidy_empty, Multimap.tidy_empty, Multimap.tidy_empty, Multimap.tidy_empty⟩

theorem insertSymbol (tidy : graph.Tidy) (path : String) (entry : Declaration) :
    (Graph.insertSymbol path graph entry).Tidy := by
  have noted := tidy.calledNames.foldl_add path entry.1.calls
  by_cases known : entry.key path ∈ graph.definitions
  · rw [insertSymbol_of_known path graph entry known]
    exact ⟨tidy.byName, tidy.filesByStem, tidy.importers, noted⟩
  · rw [insertSymbol_of_first path graph entry known]
    exact ⟨tidy.byName.add entry.1.name (entry.key path), tidy.filesByStem, tidy.importers, noted⟩

theorem insert (tidy : graph.Tidy) (record : Record) : (graph.insert record).Tidy := by
  have started : (graph.startFile record.path).Tidy :=
    ⟨tidy.byName, tidy.filesByStem, tidy.importers, tidy.calledNames⟩
  have folded :
      ((declarations record.symbols).foldl (Graph.insertSymbol record.path)
        (graph.startFile record.path)).Tidy :=
    List.foldlRecOn (motive := Tidy) (declarations record.symbols) _ started
      fun _ kept entry _ => kept.insertSymbol record.path entry
  obtain ⟨_, _, _, _, _, equal, inserted⟩ := insert_eq graph record
  rw [equal] at folded
  rw [inserted]
  exact ⟨folded.byName, tidy.filesByStem.foldl_add record.path _,
    tidy.importers.foldl_add record.path _, folded.calledNames⟩

theorem dropDefinition (tidy : graph.Tidy) (key : String) : (graph.dropDefinition key).Tidy := by
  unfold Graph.dropDefinition
  cases graph.definitions[key]? with
  | none => exact tidy
  | some definition =>
      exact ⟨tidy.byName.drop definition.name key, tidy.filesByStem, tidy.importers,
        tidy.calledNames⟩

theorem teardownKey (tidy : graph.Tidy) (path key : String) :
    (Graph.teardownKey path graph key).Tidy := by
  have isolated : (graph.isolate key).Tidy :=
    ⟨tidy.byName, tidy.filesByStem, tidy.importers, tidy.calledNames⟩
  have dropped := isolated.dropDefinition key
  exact ⟨dropped.byName, dropped.filesByStem, dropped.importers,
    dropped.calledNames.foldl_drop path _⟩

theorem teardown (tidy : graph.Tidy) (path : String) : (graph.teardown path).Tidy := by
  have bare : (graph.withoutKeys path).Tidy :=
    List.foldlRecOn (motive := Tidy) (graph.keysIn path) _ tidy
      fun _ kept key _ => kept.teardownKey path key
  rw [teardown_eq]
  exact ⟨bare.byName, tidy.filesByStem.foldl_drop path _, tidy.importers.foldl_drop path _,
    bare.calledNames⟩

end Tidy

attribute [ext] Graph

/-- Two tidy views of the same files are the same graph, up to edges. -/
theorem Shows.bare_eq {left right : Graph} {files : String → Option Contents}
    (leftShows : Shows left files) (rightShows : Shows right files)
    (leftTidy : left.Tidy) (rightTidy : right.Tidy)
    (limits : left.fallbackLimit = right.fallbackLimit) : left.bare = right.bare := by
  have definitions : ∀ key : String, left.definitions[key]? = right.definitions[key]? := by
    intro key
    rw [leftShows.getElem?_definitions, rightShows.getElem?_definitions]
  apply Graph.ext
  case definitions => exact Std.ExtTreeMap.ext_getElem? fun {key} => definitions key
  case byName =>
    apply Multimap.ext_of_tidy leftTidy.byName rightTidy.byName
    intro name key
    rw [leftShows.mem_byName, rightShows.mem_byName, definitions]
  case byFile =>
    apply Std.ExtTreeMap.ext_getElem?
    intro path
    exact (leftShows.file path).byFile.trans (rightShows.file path).byFile.symm
  case filesByStem =>
    apply Multimap.ext_of_tidy leftTidy.filesByStem rightTidy.filesByStem
    intro stem path
    exact ((leftShows.file path).filesByStem stem).trans
      ((rightShows.file path).filesByStem stem).symm
  case imports =>
    apply Std.ExtTreeMap.ext_getElem?
    intro path
    exact (leftShows.file path).imports.trans (rightShows.file path).imports.symm
  case exports =>
    apply Std.ExtTreeMap.ext_getElem?
    intro path
    exact (leftShows.file path).exports.trans (rightShows.file path).exports.symm
  case importers =>
    apply Multimap.ext_of_tidy leftTidy.importers rightTidy.importers
    intro stem path
    exact ((leftShows.file path).importers stem).trans ((rightShows.file path).importers stem).symm
  case rawCalls =>
    apply Std.ExtTreeMap.ext_getElem?
    intro key
    exact ((leftShows.file (ownerOf key)).declares.rawCalls key rfl).trans
      ((rightShows.file (ownerOf key)).declares.rawCalls key rfl).symm
  case calledNames =>
    apply Multimap.ext_of_tidy leftTidy.calledNames rightTidy.calledNames
    intro name path
    exact ((leftShows.file path).declares.calledNames name).trans
      ((rightShows.file path).declares.calledNames name).symm
  case callees => rfl
  case callers => rfl
  case fallbackLimit => exact limits

end CodeIndex.Graph
