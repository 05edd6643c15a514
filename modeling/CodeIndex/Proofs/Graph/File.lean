import CodeIndex.Proofs.Graph.Declared

/-!
Contract: what a graph holds of one file, apart from edges.

Owns:
- `Contents`: the part of a record that a graph shows;
- `Graph.ShowsFile`: what the graph holds of a file is what its contents say;
- `Graph.ShowsFile.insert_self`, `Graph.ShowsFile.insert_other`: a file put in.

Does not own: files taken out, and edges.

Everything in the graph but the edges belongs to one file: a key by its owner, a path by itself.
What an operation on one file does is therefore said twice: for that file, and that it leaves every
other file alone.
-/

set_option autoImplicit false

namespace CodeIndex

/-- The part of a record that a graph shows. -/
structure Contents where
  declarations : List Declaration
  imports : List Import
  exports : List Export

namespace Contents

def ofRecord (record : Record) : Contents :=
  { declarations := Graph.declarations record.symbols
    imports := record.imports
    exports := record.exports }

/-- The modules of the imports, then those of the exports that are passed on. -/
def specifiers (contents : Contents) : List String :=
  contents.imports.map (·.source) ++ contents.exports.filterMap (·.source)

/-- The declarations of a file that may be missing. -/
def entries : Option Contents → List Declaration
  | some contents => contents.declarations
  | none => []

end Contents

namespace Graph

/-! ## What is shown of a file -/

/-- The keys of a file stand for its declarations. -/
structure Declares (graph : Graph) (path : String) (entries : List Declaration) : Prop where
  definitions : ∀ key, ownerOf key = path →
    graph.definitions[key]? = declared? path entries key
  byName : ∀ name key, ownerOf key = path →
    (key ∈ graph.byName.values name ↔
      ∃ definition, declared? path entries key = some definition ∧ definition.name = name)
  rawCalls : ∀ key, ownerOf key = path →
    graph.rawCalls[key]? = declaredCalls? path entries key
  calledNames : ∀ name,
    path ∈ graph.calledNames.values name ↔ ∃ entry ∈ entries, name ∈ entry.1.calls

/-- What the graph holds of a file, apart from edges, is what its contents say. -/
structure ShowsFile (graph : Graph) (path : String) (contents : Option Contents) : Prop where
  declares : Declares graph path (Contents.entries contents)
  byFile : graph.byFile[path]? = contents.map fun present => declaredKeys path present.declarations
  imports : graph.imports[path]? = contents.map (·.imports)
  exports : graph.exports[path]? = contents.map (·.exports)
  importers : ∀ stem, path ∈ graph.importers.values stem ↔
    ∃ present, contents = some present ∧ stem ∈ importedStems path present.specifiers
  filesByStem : ∀ stem, path ∈ graph.filesByStem.values stem ↔
    contents.isSome ∧ stem ∈ Specifier.fileStems path

namespace ShowsFile

variable {graph : Graph} {path : String} {contents : Option Contents}

theorem keysIn (shows : ShowsFile graph path contents) :
    graph.keysIn path = declaredKeys path (Contents.entries contents) := by
  rw [Graph.keysIn, Std.ExtTreeMap.getD_eq_getD_getElem?, shows.byFile]
  cases contents with
  | none => rfl
  | some present => rfl

theorem ownerOf_of_mem_keysIn (shows : ShowsFile graph path contents) (plain : Plain path)
    {key : String} (member : key ∈ graph.keysIn path) : ownerOf key = path :=
  ownerOf_of_mem_declaredKeys plain (shows.keysIn ▸ member)

end ShowsFile

/-! ## One symbol -/

section InsertSymbol

variable (path : String) (graph : Graph) (entry : Declaration)

theorem insertSymbol_of_known (known : entry.key path ∈ graph.definitions) :
    insertSymbol path graph entry =
      { graph.noteCalls path entry.1.calls with
        rawCalls :=
          graph.rawCalls.insert (entry.key path)
            (addNames (graph.rawCalls.getD (entry.key path) []) entry.1.calls) } := by
  have present : graph.definitions.contains (Definition.keyOf path entry.1 entry.2) = true :=
    Std.ExtTreeMap.contains_iff_mem.mpr known
  simp [insertSymbol, noteCalls, present, Declaration.key]

theorem insertSymbol_of_first (first : ¬ entry.key path ∈ graph.definitions) :
    insertSymbol path graph entry =
      { graph.noteCalls path entry.1.calls with
        definitions := graph.definitions.insert (entry.key path) (entry.definition path)
        byName := graph.byName.add entry.1.name (entry.key path)
        rawCalls :=
          if entry.1.calls.isEmpty then graph.rawCalls
          else graph.rawCalls.insert (entry.key path) entry.1.calls
        byFile := graph.byFile.insert path (graph.keysIn path ++ [entry.key path]) } := by
  have absent : graph.definitions.contains (Definition.keyOf path entry.1 entry.2) = false := by
    rw [Bool.eq_false_iff, ne_eq, Std.ExtTreeMap.contains_iff_mem]
    exact first
  simp [insertSymbol, noteCalls, absent, Declaration.key, Declaration.definition, keysIn]

theorem getElem?_definitions_insertSymbol (key : String) :
    (insertSymbol path graph entry).definitions[key]? =
      (graph.definitions[key]?).or
        (if entry.key path = key then some (entry.definition path) else none) := by
  by_cases known : entry.key path ∈ graph.definitions
  · rw [insertSymbol_of_known path graph entry known]
    by_cases same : entry.key path = key
    · obtain ⟨definition, found⟩ := Option.isSome_iff_exists.mp
        (Std.ExtTreeMap.mem_iff_isSome_getElem?.mp (same ▸ known))
      simp [noteCalls, found]
    · simp [noteCalls, same]
  · rw [insertSymbol_of_first path graph entry known]
    by_cases same : entry.key path = key
    · subst same
      simp [Std.ExtTreeMap.getElem?_eq_none known]
    · simp [Std.ExtTreeMap.getElem?_insert, same]

theorem mem_byName_insertSymbol (name key : String) :
    key ∈ (insertSymbol path graph entry).byName.values name ↔
      (¬ entry.key path ∈ graph.definitions ∧ entry.1.name = name ∧ entry.key path = key) ∨
        key ∈ graph.byName.values name := by
  by_cases known : entry.key path ∈ graph.definitions
  · rw [insertSymbol_of_known path graph entry known]
    simp [known, noteCalls]
  · rw [insertSymbol_of_first path graph entry known]
    simp [known]

theorem getElem?_byFile_insertSymbol (other : String) :
    (insertSymbol path graph entry).byFile[other]? =
      if path = other ∧ ¬ entry.key path ∈ graph.definitions then
        some (graph.keysIn path ++ [entry.key path])
      else graph.byFile[other]? := by
  by_cases known : entry.key path ∈ graph.definitions
  · rw [insertSymbol_of_known path graph entry known]
    simp [known, noteCalls]
  · rw [insertSymbol_of_first path graph entry known]
    simp [known, Std.ExtTreeMap.getElem?_insert]

theorem getElem?_rawCalls_insertSymbol (key : String) :
    (insertSymbol path graph entry).rawCalls[key]? =
      if ¬ entry.key path = key then graph.rawCalls[key]?
      else if key ∈ graph.definitions then
        some (addNames (graph.rawCalls.getD key []) entry.1.calls)
      else if entry.1.calls.isEmpty then graph.rawCalls[key]?
      else some entry.1.calls := by
  by_cases same : entry.key path = key
  · subst same
    by_cases known : entry.key path ∈ graph.definitions
    · rw [insertSymbol_of_known path graph entry known]
      simp [known]
    · rw [insertSymbol_of_first path graph entry known]
      by_cases silent : entry.1.calls.isEmpty <;> simp [known, silent]
  · by_cases known : entry.key path ∈ graph.definitions
    · rw [insertSymbol_of_known path graph entry known]
      simp [same, Std.ExtTreeMap.getElem?_insert]
    · rw [insertSymbol_of_first path graph entry known]
      by_cases silent : entry.1.calls.isEmpty <;>
        simp [same, silent, Std.ExtTreeMap.getElem?_insert]

theorem mem_calledNames_insertSymbol (name other : String) :
    other ∈ (insertSymbol path graph entry).calledNames.values name ↔
      (name ∈ entry.1.calls ∧ path = other) ∨ other ∈ graph.calledNames.values name := by
  by_cases known : entry.key path ∈ graph.definitions
  · rw [insertSymbol_of_known path graph entry known]
    exact Multimap.mem_values_foldl_add path entry.1.calls graph.calledNames name other
  · rw [insertSymbol_of_first path graph entry known]
    exact Multimap.mem_values_foldl_add path entry.1.calls graph.calledNames name other

/-- What a symbol does not touch. -/
theorem insertSymbol_frame :
    ∃ definitions byName byFile rawCalls calledNames,
      insertSymbol path graph entry =
        { graph with
          definitions := definitions, byName := byName, byFile := byFile,
          rawCalls := rawCalls, calledNames := calledNames } := by
  by_cases known : entry.key path ∈ graph.definitions
  · exact ⟨_, _, _, _, _, insertSymbol_of_known path graph entry known⟩
  · exact ⟨_, _, _, _, _, insertSymbol_of_first path graph entry known⟩

end InsertSymbol

/-! ## The symbols of a file -/

theorem Declares.mem_definitions {graph : Graph} {path key : String}
    {entries : List Declaration} (declares : Declares graph path entries)
    (owned : ownerOf key = path) :
    key ∈ graph.definitions ↔ (declared? path entries key).isSome := by
  rw [Std.ExtTreeMap.mem_iff_isSome_getElem?, declares.definitions key owned]

/-- A symbol that is put in is one more declaration of its file. -/
theorem Declares.insertSymbol {graph : Graph} {path : String} {entries : List Declaration}
    (plain : Plain path) (declares : Declares graph path entries) (entry : Declaration) :
    Declares (Graph.insertSymbol path graph entry) path (entries ++ [entry]) := by
  have known := declares.mem_definitions (entry.ownerOf_key plain)
  constructor
  case definitions =>
    intro key owned
    rw [getElem?_definitions_insertSymbol, declares.definitions key owned, declared?_append]
  case byName =>
    intro name key owned
    rw [mem_byName_insertSymbol, declares.byName name key owned, declared?_append, known]
    by_cases same : entry.key path = key
    · subst same
      cases declared? path entries (entry.key path) with
      | none => simp [Declaration.definition, Definition.ofSymbol]
      | some definition => simp
    · simp [same]
  case rawCalls =>
    intro key owned
    rw [getElem?_rawCalls_insertSymbol, declaredCalls?_append,
      Std.ExtTreeMap.getD_eq_getD_getElem?, declares.rawCalls key owned]
    simp only [declares.mem_definitions owned]
    by_cases same : entry.key path = key
    · cases found : declared? path entries key with
      | none => simp [same, declaredCalls?_eq_none found]
      | some definition => simp [same]
    · simp [same]
  case calledNames =>
    intro name
    rw [mem_calledNames_insertSymbol, declares.calledNames]
    simp only [and_true, List.mem_append, List.mem_singleton]
    constructor
    · rintro (called | ⟨earlier, written, called⟩)
      · exact ⟨entry, Or.inr rfl, called⟩
      · exact ⟨earlier, Or.inl written, called⟩
    · rintro ⟨earlier, written | rfl, called⟩
      · exact Or.inr ⟨earlier, written, called⟩
      · exact Or.inl called

theorem byFile_insertSymbol {graph : Graph} {path : String} {entries : List Declaration}
    (plain : Plain path) (declares : Declares graph path entries)
    (keys : graph.byFile[path]? = some (declaredKeys path entries)) (entry : Declaration) :
    (insertSymbol path graph entry).byFile[path]? =
      some (declaredKeys path (entries ++ [entry])) := by
  have known := declares.mem_definitions (entry.ownerOf_key plain)
  rw [getElem?_byFile_insertSymbol, declaredKeys_append, keysIn,
    Std.ExtTreeMap.getD_eq_getD_getElem?, keys]
  simp only [known]
  by_cases first : (declared? path entries (entry.key path)).isSome <;> simp [first]

/-- Symbols that are put in one after the other are the declarations of their file. -/
theorem Declares.foldl_insertSymbol {graph : Graph} {path : String} {entries : List Declaration}
    (plain : Plain path) (declares : Declares graph path entries)
    (keys : graph.byFile[path]? = some (declaredKeys path entries)) (more : List Declaration) :
    Declares (more.foldl (Graph.insertSymbol path) graph) path (entries ++ more) ∧
      (more.foldl (Graph.insertSymbol path) graph).byFile[path]? =
        some (declaredKeys path (entries ++ more)) := by
  induction more generalizing graph entries with
  | nil => simpa using ⟨declares, keys⟩
  | cons entry rest inductionHypothesis =>
      have step := inductionHypothesis (declares.insertSymbol plain entry)
        (byFile_insertSymbol plain declares keys entry)
      simpa using step

theorem foldl_insertSymbol_frame (path : String) (graph : Graph) (entries : List Declaration) :
    ∃ definitions byName byFile rawCalls calledNames,
      entries.foldl (insertSymbol path) graph =
        { graph with
          definitions := definitions, byName := byName, byFile := byFile,
          rawCalls := rawCalls, calledNames := calledNames } := by
  induction entries generalizing graph with
  | nil => exact ⟨_, _, _, _, _, rfl⟩
  | cons entry rest inductionHypothesis =>
      obtain ⟨_, _, _, _, _, first⟩ := insertSymbol_frame path graph entry
      obtain ⟨_, _, _, _, _, later⟩ := inductionHypothesis (insertSymbol path graph entry)
      rw [List.foldl_cons, later, first]
      exact ⟨_, _, _, _, _, rfl⟩

/-- A symbol leaves other files alone. -/
theorem ShowsFile.insertSymbol_other {graph : Graph} {path other : String}
    {contents : Option Contents} (plain : Plain path) (different : ¬ path = other)
    (shows : ShowsFile graph other contents) (entry : Declaration) :
    ShowsFile (insertSymbol path graph entry) other contents := by
  have foreign : ∀ key, ownerOf key = other → ¬ entry.key path = key := by
    intro key owned same
    exact different ((entry.ownerOf_key plain).symm.trans (same ▸ owned))
  obtain ⟨_, _, _, _, _, frame⟩ := insertSymbol_frame path graph entry
  constructor
  case declares =>
    constructor
    case definitions =>
      intro key owned
      rw [getElem?_definitions_insertSymbol, if_neg (foreign key owned), Option.or_none]
      exact shows.declares.definitions key owned
    case byName =>
      intro name key owned
      rw [mem_byName_insertSymbol]
      simpa [foreign key owned] using shows.declares.byName name key owned
    case rawCalls =>
      intro key owned
      rw [getElem?_rawCalls_insertSymbol, if_pos (foreign key owned)]
      exact shows.declares.rawCalls key owned
    case calledNames =>
      intro name
      rw [mem_calledNames_insertSymbol]
      simpa [different] using shows.declares.calledNames name
  case byFile =>
    rw [getElem?_byFile_insertSymbol, if_neg (fun both => different both.1)]
    exact shows.byFile
  case imports => rw [frame]; exact shows.imports
  case exports => rw [frame]; exact shows.exports
  case importers => rw [frame]; exact shows.importers
  case filesByStem => rw [frame]; exact shows.filesByStem

/-! ## A file put in -/

/-- The start of a file: it is known, and has no keys yet. -/
def startFile (graph : Graph) (path : String) : Graph :=
  { graph with byFile := graph.byFile.insert path [] }

theorem insert_eq (graph : Graph) (record : Record) :
    ∃ definitions byName byFile rawCalls calledNames,
      (declarations record.symbols).foldl (insertSymbol record.path)
          (graph.startFile record.path) =
        { graph with
          definitions := definitions, byName := byName, byFile := byFile,
          rawCalls := rawCalls, calledNames := calledNames } ∧
      graph.insert record =
        { graph with
          definitions := definitions, byName := byName, byFile := byFile,
          rawCalls := rawCalls, calledNames := calledNames,
          imports := graph.imports.insert record.path record.imports
          exports := graph.exports.insert record.path record.exports
          importers :=
            (importedStems record.path record.specifiers).foldl
              (fun importers stem => importers.add stem record.path) graph.importers
          filesByStem :=
            (Specifier.fileStems record.path).foldl
              (fun files stem => files.add stem record.path) graph.filesByStem } := by
  obtain ⟨definitions, byName, byFile, rawCalls, calledNames, frame⟩ :=
    foldl_insertSymbol_frame record.path (graph.startFile record.path)
      (declarations record.symbols)
  refine ⟨definitions, byName, byFile, rawCalls, calledNames, frame, ?_⟩
  unfold Graph.insert
  simp only [startFile] at frame
  simp only [frame]

theorem ShowsFile.insert_self {graph : Graph} {record : Record} (plain : Plain record.path)
    (absent : ShowsFile graph record.path none) :
    ShowsFile (graph.insert record) record.path (some (Contents.ofRecord record)) := by
  have started : Declares (graph.startFile record.path) record.path [] :=
    ⟨absent.declares.definitions, absent.declares.byName, absent.declares.rawCalls,
      absent.declares.calledNames⟩
  have nothing :
      (graph.startFile record.path).byFile[record.path]? =
        some (declaredKeys record.path []) := by
    simp [startFile, declaredKeys, addNames]
  obtain ⟨declared, keys⟩ :=
    started.foldl_insertSymbol plain nothing (declarations record.symbols)
  obtain ⟨_, _, _, _, _, folded, inserted⟩ := insert_eq graph record
  rw [folded] at declared keys
  rw [inserted]
  constructor
  case declares =>
    exact ⟨declared.definitions, declared.byName, declared.rawCalls, declared.calledNames⟩
  case byFile => exact keys
  case imports => simp [Contents.ofRecord]
  case exports => simp [Contents.ofRecord]
  case importers =>
    intro stem
    have before := absent.importers stem
    simp only [Multimap.mem_values_foldl_add, before]
    simp [Contents.ofRecord, Contents.specifiers, Record.specifiers]
  case filesByStem =>
    intro stem
    have before := absent.filesByStem stem
    simp only [Multimap.mem_values_foldl_add, before]
    simp

theorem ShowsFile.insert_other {graph : Graph} {record : Record} {other : String}
    {contents : Option Contents} (plain : Plain record.path) (different : ¬ record.path = other)
    (shows : ShowsFile graph other contents) :
    ShowsFile (graph.insert record) other contents := by
  have started : ShowsFile (graph.startFile record.path) other contents := by
    refine ⟨⟨shows.declares.definitions, shows.declares.byName, shows.declares.rawCalls,
      shows.declares.calledNames⟩, ?_, shows.imports, shows.exports, shows.importers,
      shows.filesByStem⟩
    simpa [startFile, Std.ExtTreeMap.getElem?_insert, different] using shows.byFile
  have folded : ShowsFile
      ((declarations record.symbols).foldl (insertSymbol record.path)
        (graph.startFile record.path)) other contents :=
    List.foldlRecOn (motive := fun built => ShowsFile built other contents)
      (declarations record.symbols) _ started fun _ shown entry _ =>
        shown.insertSymbol_other plain different entry
  obtain ⟨_, _, _, _, _, equal, inserted⟩ := insert_eq graph record
  rw [equal] at folded
  rw [inserted]
  constructor
  case declares =>
    exact ⟨folded.declares.definitions, folded.declares.byName, folded.declares.rawCalls,
      folded.declares.calledNames⟩
  case byFile => exact folded.byFile
  case imports => simpa [Std.ExtTreeMap.getElem?_insert, different] using shows.imports
  case exports => simpa [Std.ExtTreeMap.getElem?_insert, different] using shows.exports
  case importers =>
    intro stem
    simp only [Multimap.mem_values_foldl_add]
    simpa [different] using shows.importers stem
  case filesByStem =>
    intro stem
    simp only [Multimap.mem_values_foldl_add]
    simpa [different] using shows.filesByStem stem

end Graph

end CodeIndex
