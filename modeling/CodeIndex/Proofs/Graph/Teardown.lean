import CodeIndex.Proofs.Graph.Edges
import CodeIndex.Proofs.Graph.File

/-!
Contract: everything of a file taken out of the graph.

Owns:
- what `teardownKey` and `teardown` leave, field by field;
- `Graph.ShowsFile.teardown_self`, `Graph.ShowsFile.teardown_other`: the file is gone, and every
  other file is shown as before;
- the edges that are left.
-/

set_option autoImplicit false

namespace CodeIndex.Graph

/-! ## One key -/

section TeardownKey

variable (path : String) (graph : Graph) (gone : String)

theorem getElem?_definitions_dropDefinition (key : String) :
    (graph.dropDefinition gone).definitions[key]? =
      if gone = key then none else graph.definitions[key]? := by
  unfold dropDefinition
  cases found : graph.definitions[gone]? with
  | none =>
      by_cases same : gone = key
      · simp [← same, found]
      · simp [same]
  | some definition => simp [Std.ExtTreeMap.getElem?_erase]

theorem mem_byName_dropDefinition (name key : String) :
    key ∈ (graph.dropDefinition gone).byName.values name ↔
      ¬ (gone = key ∧ ∃ definition, graph.definitions[gone]? = some definition ∧
          definition.name = name) ∧
        key ∈ graph.byName.values name := by
  unfold dropDefinition
  cases found : graph.definitions[gone]? with
  | none => simp
  | some definition => simp [and_comm]

theorem dropDefinition_frame :
    ∃ definitions byName,
      graph.dropDefinition gone =
        { graph with definitions := definitions, byName := byName } := by
  unfold dropDefinition
  cases graph.definitions[gone]? with
  | none => exact ⟨_, _, rfl⟩
  | some definition => exact ⟨_, _, rfl⟩

/-- The graph without the edges of a key. -/
def isolate : Graph :=
  (graph.unlinkOutgoing gone).unlinkIncoming gone

theorem teardownKey_eq :
    ∃ definitions byName,
      ((graph.isolate gone).dropDefinition gone).definitions = definitions ∧
      ((graph.isolate gone).dropDefinition gone).byName = byName ∧
      teardownKey path graph gone =
        { graph with
          definitions := definitions
          byName := byName
          rawCalls := graph.rawCalls.erase gone
          calledNames :=
            (graph.rawCalls.getD gone []).foldl (fun names name => names.drop name path)
              graph.calledNames
          callees := (graph.isolate gone).callees
          callers := (graph.isolate gone).callers } := by
  obtain ⟨definitions, byName, frame⟩ := dropDefinition_frame (graph.isolate gone) gone
  refine ⟨definitions, byName, by rw [frame], by rw [frame], ?_⟩
  rw [teardownKey, ← isolate, frame]
  rfl

theorem getElem?_definitions_teardownKey (key : String) :
    (teardownKey path graph gone).definitions[key]? =
      if gone = key then none else graph.definitions[key]? := by
  obtain ⟨_, _, rfl, _, equal⟩ := teardownKey_eq path graph gone
  rw [equal]
  exact getElem?_definitions_dropDefinition (graph.isolate gone) gone key

theorem mem_byName_teardownKey (name key : String) :
    key ∈ (teardownKey path graph gone).byName.values name ↔
      ¬ (gone = key ∧ ∃ definition, graph.definitions[gone]? = some definition ∧
          definition.name = name) ∧
        key ∈ graph.byName.values name := by
  obtain ⟨_, _, _, rfl, equal⟩ := teardownKey_eq path graph gone
  rw [equal]
  exact mem_byName_dropDefinition (graph.isolate gone) gone name key

theorem getElem?_rawCalls_teardownKey (key : String) :
    (teardownKey path graph gone).rawCalls[key]? =
      if gone = key then none else graph.rawCalls[key]? := by
  obtain ⟨_, _, _, _, equal⟩ := teardownKey_eq path graph gone
  rw [equal]
  simp [Std.ExtTreeMap.getElem?_erase]

theorem mem_calledNames_teardownKey (name other : String) :
    other ∈ (teardownKey path graph gone).calledNames.values name ↔
      ¬ (name ∈ graph.rawCalls.getD gone [] ∧ path = other) ∧
        other ∈ graph.calledNames.values name := by
  obtain ⟨_, _, _, _, equal⟩ := teardownKey_eq path graph gone
  rw [equal]
  exact Multimap.mem_values_foldl_drop path _ graph.calledNames name other

theorem Mirrored.isolate {graph : Graph} (mirrored : graph.Mirrored) (gone : String) :
    (graph.isolate gone).Mirrored :=
  (mirrored.unlinkOutgoing gone).unlinkIncoming gone

theorem Mirrored.teardownKey {graph : Graph} (mirrored : graph.Mirrored) (path gone : String) :
    (Graph.teardownKey path graph gone).Mirrored := by
  have isolated := mirrored.isolate gone
  obtain ⟨_, _, _, _, equal⟩ := teardownKey_eq path graph gone
  rw [equal]
  exact ⟨isolated.agree, isolated.calleesTidy, isolated.callersTidy⟩

theorem mem_callees_teardownKey {graph : Graph} (mirrored : graph.Mirrored)
    (path gone caller callee : String) :
    callee ∈ (Graph.teardownKey path graph gone).callees.values caller ↔
      (¬ gone = caller ∧ ¬ gone = callee) ∧ callee ∈ graph.callees.values caller := by
  obtain ⟨_, _, _, _, equal⟩ := teardownKey_eq path graph gone
  rw [equal]
  simp only [Graph.isolate]
  rw [mem_callees_unlinkIncoming (mirrored.unlinkOutgoing gone), mem_callees_unlinkOutgoing]
  grind

theorem teardownKey_frame :
    ∃ definitions byName rawCalls calledNames callees callers,
      teardownKey path graph gone =
        { graph with
          definitions := definitions, byName := byName, rawCalls := rawCalls,
          calledNames := calledNames, callees := callees, callers := callers } := by
  obtain ⟨_, _, _, _, equal⟩ := teardownKey_eq path graph gone
  exact ⟨_, _, _, _, _, _, equal⟩

end TeardownKey

/-! ## Several keys -/

theorem getElem?_definitions_foldl_teardownKey (path : String) (keys : List String)
    (graph : Graph) (key : String) :
    (keys.foldl (teardownKey path) graph).definitions[key]? =
      if key ∈ keys then none else graph.definitions[key]? := by
  induction keys generalizing graph with
  | nil => simp
  | cons first rest inductionHypothesis =>
      rw [List.foldl_cons, inductionHypothesis, getElem?_definitions_teardownKey]
      grind

theorem mem_byName_foldl_teardownKey (path : String) (keys : List String) (graph : Graph)
    (name key : String) :
    key ∈ (keys.foldl (teardownKey path) graph).byName.values name ↔
      ¬ (key ∈ keys ∧ ∃ definition, graph.definitions[key]? = some definition ∧
          definition.name = name) ∧
        key ∈ graph.byName.values name := by
  induction keys generalizing graph with
  | nil => simp
  | cons first rest inductionHypothesis =>
      rw [List.foldl_cons, inductionHypothesis, mem_byName_teardownKey,
        getElem?_definitions_teardownKey]
      grind

theorem getElem?_rawCalls_foldl_teardownKey (path : String) (keys : List String)
    (graph : Graph) (key : String) :
    (keys.foldl (teardownKey path) graph).rawCalls[key]? =
      if key ∈ keys then none else graph.rawCalls[key]? := by
  induction keys generalizing graph with
  | nil => simp
  | cons first rest inductionHypothesis =>
      rw [List.foldl_cons, inductionHypothesis, getElem?_rawCalls_teardownKey]
      grind

theorem mem_calledNames_foldl_teardownKey (path : String) (keys : List String) (graph : Graph)
    (name other : String) :
    other ∈ (keys.foldl (teardownKey path) graph).calledNames.values name ↔
      ¬ (path = other ∧ ∃ key ∈ keys, name ∈ graph.rawCalls.getD key []) ∧
        other ∈ graph.calledNames.values name := by
  induction keys generalizing graph with
  | nil => simp
  | cons first rest inductionHypothesis =>
      rw [List.foldl_cons, inductionHypothesis, mem_calledNames_teardownKey]
      simp only [Std.ExtTreeMap.getD_eq_getD_getElem?, getElem?_rawCalls_teardownKey,
        List.mem_cons]
      grind

theorem Mirrored.foldl_teardownKey {graph : Graph} (mirrored : graph.Mirrored) (path : String)
    (keys : List String) : (keys.foldl (Graph.teardownKey path) graph).Mirrored :=
  List.foldlRecOn (motive := Mirrored) keys _ mirrored
    fun _ kept key _ => kept.teardownKey path key

theorem mem_callees_foldl_teardownKey {graph : Graph} (mirrored : graph.Mirrored)
    (path : String) (keys : List String) (caller callee : String) :
    callee ∈ (keys.foldl (teardownKey path) graph).callees.values caller ↔
      (¬ caller ∈ keys ∧ ¬ callee ∈ keys) ∧ callee ∈ graph.callees.values caller := by
  induction keys generalizing graph with
  | nil => simp
  | cons first rest inductionHypothesis =>
      rw [List.foldl_cons, inductionHypothesis (mirrored.teardownKey path first),
        mem_callees_teardownKey mirrored]
      grind

theorem foldl_teardownKey_frame (path : String) (keys : List String) (graph : Graph) :
    ∃ definitions byName rawCalls calledNames callees callers,
      keys.foldl (teardownKey path) graph =
        { graph with
          definitions := definitions, byName := byName, rawCalls := rawCalls,
          calledNames := calledNames, callees := callees, callers := callers } := by
  induction keys generalizing graph with
  | nil => exact ⟨_, _, _, _, _, _, rfl⟩
  | cons first rest inductionHypothesis =>
      obtain ⟨_, _, _, _, _, _, step⟩ := teardownKey_frame path graph first
      obtain ⟨_, _, _, _, _, _, later⟩ := inductionHypothesis (teardownKey path graph first)
      rw [List.foldl_cons, later, step]
      exact ⟨_, _, _, _, _, _, rfl⟩

/-! ## A file -/

/-- The specifiers of the imports and the passed-on exports that the graph holds of a file. -/
def specifiersIn (graph : Graph) (path : String) : List String :=
  (graph.imports.getD path []).map (·.source) ++
    (graph.exports.getD path []).filterMap (·.source)

/-- The graph without the keys of a file. -/
def withoutKeys (graph : Graph) (path : String) : Graph :=
  (graph.keysIn path).foldl (teardownKey path) graph

theorem teardown_eq (graph : Graph) (path : String) :
    graph.teardown path =
      { graph.withoutKeys path with
        byFile := graph.byFile.erase path
        imports := graph.imports.erase path
        exports := graph.exports.erase path
        importers :=
          (importedStems path (graph.specifiersIn path)).foldl
            (fun importers stem => importers.drop stem path) graph.importers
        filesByStem :=
          (Specifier.fileStems path).foldl (fun files stem => files.drop stem path)
            graph.filesByStem } := by
  obtain ⟨_, _, _, _, _, _, frame⟩ := foldl_teardownKey_frame path (graph.keysIn path) graph
  unfold teardown withoutKeys specifiersIn
  simp only [frame]

theorem getElem?_definitions_teardown (graph : Graph) (path key : String) :
    (graph.teardown path).definitions[key]? =
      if key ∈ graph.keysIn path then none else graph.definitions[key]? := by
  rw [teardown_eq]
  exact getElem?_definitions_foldl_teardownKey path _ graph key

theorem mem_byName_teardown (graph : Graph) (path name key : String) :
    key ∈ (graph.teardown path).byName.values name ↔
      ¬ (key ∈ graph.keysIn path ∧ ∃ definition, graph.definitions[key]? = some definition ∧
          definition.name = name) ∧
        key ∈ graph.byName.values name := by
  rw [teardown_eq]
  exact mem_byName_foldl_teardownKey path _ graph name key

theorem getElem?_rawCalls_teardown (graph : Graph) (path key : String) :
    (graph.teardown path).rawCalls[key]? =
      if key ∈ graph.keysIn path then none else graph.rawCalls[key]? := by
  rw [teardown_eq]
  exact getElem?_rawCalls_foldl_teardownKey path _ graph key

theorem mem_calledNames_teardown (graph : Graph) (path name other : String) :
    other ∈ (graph.teardown path).calledNames.values name ↔
      ¬ (path = other ∧ ∃ key ∈ graph.keysIn path, name ∈ graph.rawCalls.getD key []) ∧
        other ∈ graph.calledNames.values name := by
  rw [teardown_eq]
  exact mem_calledNames_foldl_teardownKey path _ graph name other

theorem mem_importers_teardown (graph : Graph) (path stem other : String) :
    other ∈ (graph.teardown path).importers.values stem ↔
      ¬ (stem ∈ importedStems path (graph.specifiersIn path) ∧ path = other) ∧
        other ∈ graph.importers.values stem := by
  rw [teardown_eq]
  exact Multimap.mem_values_foldl_drop path _ graph.importers stem other

theorem mem_filesByStem_teardown (graph : Graph) (path stem other : String) :
    other ∈ (graph.teardown path).filesByStem.values stem ↔
      ¬ (stem ∈ Specifier.fileStems path ∧ path = other) ∧
        other ∈ graph.filesByStem.values stem := by
  rw [teardown_eq]
  exact Multimap.mem_values_foldl_drop path _ graph.filesByStem stem other

theorem Mirrored.teardown {graph : Graph} (mirrored : graph.Mirrored) (path : String) :
    (graph.teardown path).Mirrored := by
  have kept := mirrored.foldl_teardownKey path (graph.keysIn path)
  rw [teardown_eq]
  exact ⟨kept.agree, kept.calleesTidy, kept.callersTidy⟩

/-- The edges that are left have no end in the file. -/
theorem mem_callees_teardown {graph : Graph} (mirrored : graph.Mirrored)
    (path caller callee : String) :
    callee ∈ (graph.teardown path).callees.values caller ↔
      (¬ caller ∈ graph.keysIn path ∧ ¬ callee ∈ graph.keysIn path) ∧
        callee ∈ graph.callees.values caller := by
  rw [teardown_eq]
  exact mem_callees_foldl_teardownKey mirrored path _ caller callee

/-! ## What is shown afterwards -/

section Shown

variable {graph : Graph} {path : String} {contents : Option Contents}

theorem ShowsFile.specifiersIn {present : Contents}
    (shows : ShowsFile graph path (some present)) :
    graph.specifiersIn path = present.specifiers := by
  simp [Graph.specifiersIn, Contents.specifiers, Std.ExtTreeMap.getD_eq_getD_getElem?,
    shows.imports, shows.exports]

/-- A file that is taken out leaves nothing behind. -/
theorem ShowsFile.teardown_self (plain : Plain path) (shows : ShowsFile graph path contents) :
    ShowsFile (graph.teardown path) path none := by
  have listed : ∀ key, key ∈ graph.keysIn path ↔
      (declared? path (Contents.entries contents) key).isSome := by
    intro key
    rw [shows.keysIn, mem_declaredKeys_iff_isSome]
  constructor
  case declares =>
    constructor
    case definitions =>
      intro key owned
      rw [getElem?_definitions_teardown, shows.declares.definitions key owned]
      simp only [listed]
      cases declared? path (Contents.entries contents) key <;> rfl
    case byName =>
      intro name key owned
      rw [mem_byName_teardown, shows.declares.byName name key owned,
        shows.declares.definitions key owned, listed]
      cases declared? path (Contents.entries contents) key <;> simp [declared?, Contents.entries]
    case rawCalls =>
      intro key owned
      rw [getElem?_rawCalls_teardown, shows.declares.rawCalls key owned]
      simp only [listed]
      cases found : declared? path (Contents.entries contents) key with
      | none =>
          simp only [Option.isSome_none, Bool.false_eq_true, if_false]
          exact declaredCalls?_eq_none found
      | some definition => rfl
    case calledNames =>
      intro name
      rw [mem_calledNames_teardown, shows.declares.calledNames,
        ← exists_mem_declaredCalls? path, ← shows.keysIn]
      have recorded : ∀ key ∈ graph.keysIn path,
          graph.rawCalls.getD key [] =
            (declaredCalls? path (Contents.entries contents) key).getD [] := by
        intro key member
        rw [Std.ExtTreeMap.getD_eq_getD_getElem?,
          shows.declares.rawCalls key (shows.ownerOf_of_mem_keysIn plain member)]
      constructor
      · rintro ⟨kept, key, member, called⟩
        exact absurd ⟨rfl, key, member, recorded key member ▸ called⟩ kept
      · rintro ⟨entry, member, _⟩
        exact absurd member List.not_mem_nil
  case byFile => simp [teardown_eq]
  case imports => simp [teardown_eq]
  case exports => simp [teardown_eq]
  case importers =>
    intro stem
    rw [mem_importers_teardown, shows.importers]
    cases contents with
    | none => simp
    | some present => simp [shows.specifiersIn]
  case filesByStem =>
    intro stem
    rw [mem_filesByStem_teardown, shows.filesByStem]
    constructor
    · rintro ⟨kept, _, member⟩
      exact absurd ⟨member, rfl⟩ kept
    · rintro ⟨present, _⟩
      simp at present

/-- A file that is taken out leaves other files alone. -/
theorem ShowsFile.teardown_other {other : String} {otherContents : Option Contents}
    (plain : Plain path) (shows : ShowsFile graph path contents) (different : ¬ path = other)
    (shown : ShowsFile graph other otherContents) :
    ShowsFile (graph.teardown path) other otherContents := by
  have foreign : ∀ key, ownerOf key = other → ¬ key ∈ graph.keysIn path := by
    intro key owned member
    exact different ((shows.ownerOf_of_mem_keysIn plain member).symm.trans owned)
  constructor
  case declares =>
    constructor
    case definitions =>
      intro key owned
      rw [getElem?_definitions_teardown, if_neg (foreign key owned)]
      exact shown.declares.definitions key owned
    case byName =>
      intro name key owned
      rw [mem_byName_teardown]
      simpa [foreign key owned] using shown.declares.byName name key owned
    case rawCalls =>
      intro key owned
      rw [getElem?_rawCalls_teardown, if_neg (foreign key owned)]
      exact shown.declares.rawCalls key owned
    case calledNames =>
      intro name
      rw [mem_calledNames_teardown]
      simpa [different] using shown.declares.calledNames name
  case byFile =>
    simpa [teardown_eq, Std.ExtTreeMap.getElem?_erase, different] using shown.byFile
  case imports =>
    simpa [teardown_eq, Std.ExtTreeMap.getElem?_erase, different] using shown.imports
  case exports =>
    simpa [teardown_eq, Std.ExtTreeMap.getElem?_erase, different] using shown.exports
  case importers =>
    intro stem
    rw [mem_importers_teardown]
    simpa [different] using shown.importers stem
  case filesByStem =>
    intro stem
    rw [mem_filesByStem_teardown]
    simpa [different] using shown.filesByStem stem

end Shown

end CodeIndex.Graph
