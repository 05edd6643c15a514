import CodeIndex.Proofs.Graph.History

/-!
Contract: the parts of a graph agree with each other, whatever records were put into it.

Owns:
- `Graph.Consistent`: the look-ups by name and by file list the definitions, each in one place;
- `Graph.Anchored`: edges begin and end at definitions;
- `Graph.run_mirrors_edges`: both hold after every run, and callers and callees mirror each other.

Nothing is assumed of paths and names here. Two files may then make the same key. Its definition is
that of the file that was put in first, and only that file lists it; the other one adds its calls.
-/

set_option autoImplicit false

namespace CodeIndex.Graph

/-! ## Look-ups -/

/-- The look-ups by key, by name and by file are of the same definitions. -/
structure Consistent (graph : Graph) : Prop where
  key : ∀ (key : String) (definition : Definition),
    graph.definitions[key]? = some definition → definition.key = key
  named : ∀ name key, key ∈ graph.byName.values name ↔ graph.Named name key
  listed : ∀ path key, key ∈ graph.keysIn path ↔
    ∃ definition, graph.definitions[key]? = some definition ∧ definition.path = path
  once : ∀ path, (graph.keysIn path).Nodup

theorem mem_definitions_iff (graph : Graph) (key : String) :
    key ∈ graph.definitions ↔ ∃ definition, graph.definitions[key]? = some definition := by
  rw [Std.ExtTreeMap.mem_iff_isSome_getElem?, Option.isSome_iff_exists]

theorem definitions_eq_of_bare {left right : Graph} (same : left.bare = right.bare) :
    left.definitions = right.definitions := by
  have equal : left.bare.definitions = right.bare.definitions := by rw [same]
  exact equal

theorem mem_definitions_insert (graph : Graph) (record : Record) {key : String}
    (defined : key ∈ graph.definitions) : key ∈ (graph.insert record).definitions := by
  have folded : key ∈ ((declarations record.symbols).foldl (Graph.insertSymbol record.path)
      (graph.startFile record.path)).definitions := by
    refine List.foldlRecOn (motive := fun built : Graph => key ∈ built.definitions)
      (declarations record.symbols) _ defined ?_
    intro built kept entry _
    obtain ⟨definition, found⟩ := (mem_definitions_iff built key).mp kept
    rw [mem_definitions_iff, getElem?_definitions_insertSymbol, found]
    exact ⟨definition, rfl⟩
  obtain ⟨_, _, _, _, _, equal, inserted⟩ := insert_eq graph record
  rw [equal] at folded
  rw [inserted]
  exact folded

theorem keysIn_teardown (graph : Graph) (path other : String) :
    (graph.teardown path).keysIn other = if path = other then [] else graph.keysIn other := by
  simp only [keysIn, teardown_eq, Std.ExtTreeMap.getD_eq_getD_getElem?,
    Std.ExtTreeMap.getElem?_erase, Std.LawfulEqCmp.compare_eq_iff_eq]
  split <;> rfl

/-- A key that is new is listed last by its file. -/
theorem keysIn_insertSymbol_of_first (path : String) (graph : Graph) (entry : Declaration)
    (first : ¬ entry.key path ∈ graph.definitions) (other : String) :
    (insertSymbol path graph entry).keysIn other =
      if path = other then graph.keysIn path ++ [entry.key path] else graph.keysIn other := by
  rw [keysIn, Std.ExtTreeMap.getD_eq_getD_getElem?, getElem?_byFile_insertSymbol]
  by_cases same : path = other
  · subst same
    simp [first]
  · rw [if_neg (fun both => same both.1), if_neg same, keysIn,
      Std.ExtTreeMap.getD_eq_getD_getElem?]

theorem getElem?_definitions_insertSymbol_of_first (path : String) (graph : Graph)
    (entry : Declaration) (first : ¬ entry.key path ∈ graph.definitions) (key : String) :
    (insertSymbol path graph entry).definitions[key]? =
      if entry.key path = key then some (entry.definition path) else graph.definitions[key]? := by
  rw [getElem?_definitions_insertSymbol]
  by_cases same : entry.key path = key
  · rw [if_pos same, if_pos same, ← same, Std.ExtTreeMap.getElem?_eq_none first, Option.none_or]
  · rw [if_neg same, if_neg same, Option.or_none]

namespace Consistent

variable {graph : Graph}

theorem empty (limit : Nat) : (Graph.empty limit).Consistent := by
  constructor <;> simp [Graph.empty, Named, keysIn]

theorem congr_bare {left right : Graph} (same : left.bare = right.bare)
    (consistent : left.Consistent) : right.Consistent := by
  have bare : right.bare.Consistent := by
    rw [← same]
    exact ⟨consistent.key, consistent.named, consistent.listed, consistent.once⟩
  exact ⟨bare.key, bare.named, bare.listed, bare.once⟩

theorem mem_definitions_of_listed (consistent : graph.Consistent) {path key : String}
    (member : key ∈ graph.keysIn path) : key ∈ graph.definitions := by
  obtain ⟨definition, found, _⟩ := (consistent.listed path key).mp member
  exact (mem_definitions_iff graph key).mpr ⟨definition, found⟩

/-- A key is listed by one file only. -/
theorem path_unique (consistent : graph.Consistent) {first second key : String}
    (inFirst : key ∈ graph.keysIn first) (inSecond : key ∈ graph.keysIn second) :
    first = second := by
  obtain ⟨definition, found, rfl⟩ := (consistent.listed first key).mp inFirst
  obtain ⟨same, again, rfl⟩ := (consistent.listed second key).mp inSecond
  rw [Option.some.inj (found.symm.trans again)]

/-- The file of a definition lists its key, and lists it once. -/
theorem listed_once (consistent : graph.Consistent) {key : String}
    (defined : key ∈ graph.definitions) :
    ∃ (path : String) (keys : List String), graph.byFile[path]? = some keys ∧
      keys.count key = 1 ∧
      ∀ (other : String) (otherKeys : List String), graph.byFile[other]? = some otherKeys →
        key ∈ otherKeys → other = path := by
  have inFile : ∀ (path : String) (keys : List String), graph.byFile[path]? = some keys →
      graph.keysIn path = keys := by
    intro path keys listed
    rw [keysIn, Std.ExtTreeMap.getD_eq_getD_getElem?, listed, Option.getD_some]
  obtain ⟨definition, found⟩ := (mem_definitions_iff graph key).mp defined
  have mine := (consistent.listed definition.path key).mpr ⟨definition, found, rfl⟩
  cases listed : graph.byFile[definition.path]? with
  | none =>
      rw [keysIn, Std.ExtTreeMap.getD_eq_getD_getElem?, listed] at mine
      exact absurd mine List.not_mem_nil
  | some keys =>
      refine ⟨definition.path, keys, listed, ?_, ?_⟩
      · rw [← inFile _ _ listed, (consistent.once _).count, if_pos mine]
      · intro other otherKeys otherListed member
        rw [← inFile _ _ otherListed] at member
        exact consistent.path_unique member mine

/-! ### Files put in -/

theorem insertSymbol (consistent : graph.Consistent) (path : String) (entry : Declaration) :
    (Graph.insertSymbol path graph entry).Consistent := by
  by_cases known : entry.key path ∈ graph.definitions
  · -- A key that is known, from this file or from another one, only gets more calls.
    rw [insertSymbol_of_known path graph entry known]
    exact ⟨consistent.key, consistent.named, consistent.listed, consistent.once⟩
  · have unlisted : ∀ other, ¬ entry.key path ∈ graph.keysIn other :=
      fun other member => known (consistent.mem_definitions_of_listed member)
    have keys := keysIn_insertSymbol_of_first path graph entry known
    have looked := getElem?_definitions_insertSymbol_of_first path graph entry known
    constructor
    case key =>
      intro key definition found
      rw [looked] at found
      split at found
      · next same => rw [← Option.some.inj found, ← same]; rfl
      · exact consistent.key key definition found
    case named =>
      intro name key
      rw [mem_byName_insertSymbol, consistent.named]
      unfold Named
      rw [looked]
      by_cases same : entry.key path = key
      · subst same
        simp [known, Declaration.definition, Definition.ofSymbol]
      · simp [same]
    case listed =>
      intro other key
      rw [keys, looked]
      by_cases here : path = other
      · subst here
        by_cases same : entry.key path = key
        · simp [same, Declaration.definition, Definition.ofSymbol]
        · simp [same, Ne.symm same, consistent.listed]
      · rw [if_neg here]
        by_cases same : entry.key path = key
        · subst same
          simp [unlisted other, here, Declaration.definition, Definition.ofSymbol]
        · simp [same, consistent.listed]
    case once =>
      intro other
      rw [keys]
      split
      · refine List.nodup_append.mpr ⟨consistent.once path, by simp, ?_⟩
        intro key member last isLast
        rw [List.mem_singleton.mp isLast]
        exact fun same => unlisted path (same ▸ member)
      · exact consistent.once other

theorem insert (consistent : graph.Consistent) (record : Record)
    (absent : graph.keysIn record.path = []) : (graph.insert record).Consistent := by
  have keys : ∀ other, (graph.startFile record.path).keysIn other = graph.keysIn other := by
    intro other
    by_cases same : record.path = other
    · subst same
      simpa [keysIn, startFile] using absent.symm
    · simp [keysIn, startFile, Std.ExtTreeMap.getD_insert, same]
  have started : (graph.startFile record.path).Consistent := by
    refine ⟨consistent.key, consistent.named, ?_, ?_⟩
    · intro other key
      rw [keys]
      exact consistent.listed other key
    · intro other
      rw [keys]
      exact consistent.once other
  have folded : ((declarations record.symbols).foldl (Graph.insertSymbol record.path)
      (graph.startFile record.path)).Consistent :=
    List.foldlRecOn (motive := Consistent) (declarations record.symbols) _ started
      fun _ kept entry _ => kept.insertSymbol record.path entry
  obtain ⟨_, _, _, _, _, equal, inserted⟩ := insert_eq graph record
  rw [equal] at folded
  rw [inserted]
  exact ⟨folded.key, folded.named, folded.listed, folded.once⟩

/-! ### Files taken out -/

theorem teardown (consistent : graph.Consistent) (path : String) :
    (graph.teardown path).Consistent := by
  constructor
  case key =>
    intro key definition found
    rw [getElem?_definitions_teardown] at found
    split at found
    · simp at found
    · exact consistent.key key definition found
  case named =>
    intro name key
    rw [mem_byName_teardown, consistent.named]
    unfold Named
    rw [getElem?_definitions_teardown]
    by_cases gone : key ∈ graph.keysIn path <;> simp [gone]
  case listed =>
    intro other key
    rw [keysIn_teardown, getElem?_definitions_teardown]
    by_cases here : path = other
    · subst here
      by_cases gone : key ∈ graph.keysIn path
      · simp [gone]
      · have elsewhere := mt (consistent.listed path key).mpr gone
        simpa [gone] using elsewhere
    · rw [if_neg here, consistent.listed]
      by_cases gone : key ∈ graph.keysIn path
      · have elsewhere : ¬ key ∈ graph.keysIn other :=
          fun member => here (consistent.path_unique gone member)
        simpa [gone] using mt (consistent.listed other key).mpr elsewhere
      · simp [gone]
  case once =>
    intro other
    rw [keysIn_teardown]
    split
    · exact List.nodup_nil
    · exact consistent.once other

/-! ### What calls lead to -/

theorem mem_definitions_of_resolveCall (consistent : graph.Consistent) {path name key : String}
    (found : key ∈ graph.resolveCall path name) : key ∈ graph.definitions := by
  have candidate : key ∈ (graph.byName.values name).toList → key ∈ graph.definitions := by
    intro member
    obtain ⟨definition, defined, _⟩ :=
      (consistent.named name key).mp (Std.ExtTreeSet.mem_toList.mp member)
    exact (mem_definitions_iff graph key).mpr ⟨definition, defined⟩
  rw [resolveCall_eq] at found
  split at found
  · exact candidate (List.mem_filter.mp found).1
  · split at found
    · rw [resolveThroughImports, Option.mem_toList] at found
      obtain ⟨_, statement, _, _, leads, _⟩ := List.findSome?_eq_some_iff.mp found
      unfold resolveImport? at leads
      split at leads
      · split at leads
        · obtain ⟨_, file, _, _, defined, _⟩ := List.findSome?_eq_some_iff.mp leads
          exact ((topLevel?_eq_some _ _ _ _).mp defined).2
        · simp at leads
      · simp at leads
    · split at found
      · exact candidate found
      · simp at found

theorem mem_definitions_of_targets (consistent : graph.Consistent) {path caller callee : String}
    (target : callee ∈ graph.targets path caller) : callee ∈ graph.definitions := by
  obtain ⟨name, _, found⟩ := (mem_targets graph path caller callee).mp target
  exact consistent.mem_definitions_of_resolveCall found

end Consistent

/-! ## Ends of edges -/

/-- Edges begin and end at definitions. -/
def Anchored (graph : Graph) : Prop :=
  ∀ caller callee, callee ∈ graph.callees.values caller →
    caller ∈ graph.definitions ∧ callee ∈ graph.definitions

namespace Anchored

variable {graph : Graph}

theorem linkFile (anchored : graph.Anchored) (consistent : graph.Consistent) (path : String) :
    (graph.linkFile path).Anchored := by
  intro caller callee edge
  rw [definitions_eq_of_bare (bare_linkFile graph path)]
  rcases (mem_callees_linkFile graph path caller callee).mp edge with ⟨mine, target⟩ | kept
  · exact ⟨consistent.mem_definitions_of_listed mine, consistent.mem_definitions_of_targets target⟩
  · exact anchored caller callee kept

theorem relinkFile (anchored : graph.Anchored) (consistent : graph.Consistent) (path : String) :
    (graph.relinkFile path).Anchored := by
  intro caller callee edge
  rw [definitions_eq_of_bare (bare_relinkFile graph path)]
  rw [mem_callees_relinkFile] at edge
  split at edge
  · next mine =>
      exact ⟨consistent.mem_definitions_of_listed mine,
        consistent.mem_definitions_of_targets edge⟩
  · exact anchored caller callee edge

theorem relinkFiles (anchored : graph.Anchored) (consistent : graph.Consistent)
    (paths : List String) : (graph.relinkFiles paths).Anchored := by
  have both : (graph.relinkFiles paths).Anchored ∧ (graph.relinkFiles paths).Consistent :=
    List.foldlRecOn (motive := fun linked : Graph => linked.Anchored ∧ linked.Consistent) paths _
      ⟨anchored, consistent⟩ fun linked kept path _ =>
        ⟨kept.1.relinkFile kept.2 path, kept.2.congr_bare (bare_relinkFile linked path).symm⟩
  exact both.1

/-- The keys of a file go with their edges, so the edges that are left lose no end. -/
theorem teardown (anchored : graph.Anchored) (mirrored : graph.Mirrored) (path : String) :
    (graph.teardown path).Anchored := by
  intro caller callee edge
  obtain ⟨⟨callerStays, calleeStays⟩, kept⟩ := (mem_callees_teardown mirrored path _ _).mp edge
  obtain ⟨callerDefined, calleeDefined⟩ := anchored caller callee kept
  have stays : ∀ key, ¬ key ∈ graph.keysIn path → key ∈ graph.definitions →
      key ∈ (graph.teardown path).definitions := by
    intro key foreign defined
    obtain ⟨definition, found⟩ := (mem_definitions_iff graph key).mp defined
    rw [mem_definitions_iff, getElem?_definitions_teardown, if_neg foreign]
    exact ⟨definition, found⟩
  exact ⟨stays caller callerStays callerDefined, stays callee calleeStays calleeDefined⟩

theorem insert (anchored : graph.Anchored) (record : Record) : (graph.insert record).Anchored := by
  intro caller callee edge
  rw [(insert_edges graph record).1] at edge
  obtain ⟨callerDefined, calleeDefined⟩ := anchored caller callee edge
  exact ⟨mem_definitions_insert graph record callerDefined,
    mem_definitions_insert graph record calleeDefined⟩

end Anchored

/-! ## All parts -/

/-- What holds of every graph: its look-ups agree, its edges have ends and can be followed both
ways, and no look-up keeps an empty set. -/
structure Intact (graph : Graph) : Prop where
  consistent : graph.Consistent
  anchored : graph.Anchored
  mirrored : graph.Mirrored
  tidy : graph.Tidy

namespace Intact

variable {graph : Graph}

theorem empty (limit : Nat) : (Graph.empty limit).Intact where
  consistent := Consistent.empty limit
  anchored := by
    intro caller callee edge
    exact absurd edge (Multimap.not_mem_values_empty caller callee)
  mirrored := (Presents.empty limit).mirrored
  tidy := Tidy.empty limit

theorem update (intact : graph.Intact) (record : Record) : (graph.update record).Intact := by
  have absent : (graph.teardown record.path).keysIn record.path = [] := by
    rw [keysIn_teardown, if_pos rfl]
  have consistent := (intact.consistent.teardown record.path).insert record absent
  have anchored := (intact.anchored.teardown intact.mirrored record.path).insert record
  have torn := intact.mirrored.teardown record.path
  have mirrored : ((graph.teardown record.path).insert record).Mirrored := by
    obtain ⟨callees, callers, _⟩ := insert_edges (graph.teardown record.path) record
    refine ⟨?_, callees ▸ torn.calleesTidy, callers ▸ torn.callersTidy⟩
    rw [callees, callers]
    exact torn.agree
  have linked := bare_linkFile ((graph.teardown record.path).insert record) record.path
  have same : (graph.update record).bare = ((graph.teardown record.path).insert record).bare := by
    rw [Graph.update, bare_relinkFiles, linked]
  constructor
  case consistent => exact consistent.congr_bare same.symm
  case anchored =>
    exact (anchored.linkFile consistent record.path).relinkFiles
      (consistent.congr_bare linked.symm) _
  case mirrored => exact (mirrored.linkFile record.path).relinkFiles _
  case tidy => exact ((intact.tidy.teardown record.path).insert record).congr_bare same.symm

theorem remove (intact : graph.Intact) (path : String) : (graph.remove path).Intact := by
  have consistent := intact.consistent.teardown path
  unfold Graph.remove
  split
  · have same := bare_relinkFiles (graph.teardown path) ((graph.dependents path).erase path).toList
    constructor
    case consistent => exact consistent.congr_bare same.symm
    case anchored =>
      exact (intact.anchored.teardown intact.mirrored path).relinkFiles consistent _
    case mirrored => exact (intact.mirrored.teardown path).relinkFiles _
    case tidy => exact (intact.tidy.teardown path).congr_bare same.symm
  · exact intact

theorem applyTo (intact : graph.Intact) (change : Change) : (change.applyTo graph).Intact := by
  cases change with
  | update record => exact intact.update record
  | remove path => exact intact.remove path

theorem run (limit : Nat) (changes : List Change) : (Graph.run limit changes).Intact :=
  List.foldlRecOn (motive := Intact) changes _ (Intact.empty limit)
    fun _ intact change _ => intact.applyTo change

/-! ## Consequences -/

/-- The other ends of the edges of a name. -/
theorem mem_neighbours (intact : graph.Intact) (edges : Multimap) (name : String)
    (definition : Definition) :
    definition ∈ graph.definitionsOf (edges.collect ((graph.named name).map (·.key))).toList ↔
      ∃ source target, graph.Named name source ∧ target ∈ edges.values source ∧
        graph.definitions[target]? = some definition := by
  have sources : ∀ source, source ∈ (graph.named name).map (·.key) ↔ graph.Named name source := by
    intro source
    simp only [Graph.named, definitionsOf, List.mem_map, List.mem_filterMap,
      Std.ExtTreeSet.mem_toList, intact.consistent.named]
    constructor
    · rintro ⟨found, ⟨key, isNamed, defined⟩, rfl⟩
      rwa [intact.consistent.key key found defined]
    · rintro ⟨found, defined, isNamed⟩
      exact ⟨found, ⟨source, ⟨found, defined, isNamed⟩, defined⟩,
        intact.consistent.key source found defined⟩
  simp only [definitionsOf, List.mem_filterMap, Std.ExtTreeSet.mem_toList, Multimap.mem_collect,
    sources]
  constructor
  · rintro ⟨target, ⟨source, isNamed, edge⟩, defined⟩
    exact ⟨source, target, isNamed, edge, defined⟩
  · rintro ⟨source, target, isNamed, edge, defined⟩
    exact ⟨target, ⟨source, isNamed, edge⟩, defined⟩

/-- Callers and callees are the same edges, asked for from either end. -/
theorem calleesOf_iff_callersOf (intact : graph.Intact) (caller callee : String) :
    (∃ found ∈ graph.calleesOf caller, found.name = callee) ↔
      ∃ found ∈ graph.callersOf callee, found.name = caller := by
  constructor
  · rintro ⟨found, member, rfl⟩
    obtain ⟨source, target, ⟨calling, defined, rfl⟩, edge, reached⟩ :=
      (intact.mem_neighbours graph.callees caller found).mp member
    refine ⟨calling, (intact.mem_neighbours graph.callers found.name calling).mpr ?_, rfl⟩
    exact ⟨target, source, ⟨found, reached, rfl⟩, (intact.mirrored.agree source target).mpr edge,
      defined⟩
  · rintro ⟨found, member, rfl⟩
    obtain ⟨target, source, ⟨called, reached, rfl⟩, edge, defined⟩ :=
      (intact.mem_neighbours graph.callers callee found).mp member
    refine ⟨called, (intact.mem_neighbours graph.callees found.name called).mpr ?_, rfl⟩
    exact ⟨source, target, ⟨found, defined, rfl⟩, (intact.mirrored.agree source target).mp edge,
      reached⟩

/-- A file that is taken out has no definitions any more. -/
theorem not_defined_of_removed (intact : graph.Intact) {path key : String}
    {definition : Definition}
    (found : (graph.remove path).definitions[key]? = some definition) :
    ¬ definition.path = path := by
  intro home
  have listed := ((intact.remove path).consistent.listed path key).mpr ⟨definition, found, home⟩
  have keys : (graph.remove path).keysIn path = [] := by
    unfold Graph.remove
    split
    · rw [keysIn_eq_of_bare (bare_relinkFiles _ _), keysIn_teardown, if_pos rfl]
    · next unknown =>
        rw [containsFile, Std.ExtTreeMap.contains_iff_mem] at unknown
        rw [keysIn, Std.ExtTreeMap.getD_eq_fallback unknown]
  rw [keys] at listed
  exact absurd listed List.not_mem_nil

end Intact

/-- After every run, with any records: callees and callers mirror each other, edges have definitions
at both ends, a name leads to just the definitions that have it, every key is listed once by one
file, and no empty set is kept. So callers and callees of names answer to each other, and no edge
touches a file that is taken out. -/
theorem run_mirrors_edges (limit : Nat) (changes : List Change) :
    let graph := run limit changes
    (∀ caller callee,
      callee ∈ graph.callees.values caller ↔ caller ∈ graph.callers.values callee) ∧
    (∀ caller callee, callee ∈ graph.callees.values caller →
      caller ∈ graph.definitions ∧ callee ∈ graph.definitions) ∧
    (∀ name key, key ∈ graph.byName.values name ↔
      ∃ definition, graph.definitions[key]? = some definition ∧ definition.name = name) ∧
    (∀ key, key ∈ graph.definitions →
      ∃ (path : String) (keys : List String), graph.byFile[path]? = some keys ∧ keys.count key = 1 ∧
        ∀ (other : String) (otherKeys : List String), graph.byFile[other]? = some otherKeys →
          key ∈ otherKeys → other = path) ∧
    (graph.byName.Tidy ∧ graph.importers.Tidy ∧ graph.filesByStem.Tidy ∧ graph.callees.Tidy ∧
      graph.callers.Tidy) ∧
    (∀ caller callee : String, (∃ found ∈ graph.calleesOf caller, found.name = callee) ↔
      ∃ found ∈ graph.callersOf callee, found.name = caller) ∧
    ∀ path caller callee, callee ∈ (graph.remove path).callees.values caller →
      ∃ source target, (graph.remove path).definitions[caller]? = some source ∧
        (graph.remove path).definitions[callee]? = some target ∧
        ¬ source.path = path ∧ ¬ target.path = path := by
  intro graph
  have intact : graph.Intact := Intact.run limit changes
  refine ⟨?_, intact.anchored, intact.consistent.named, ?_, ?_, intact.calleesOf_iff_callersOf, ?_⟩
  · exact fun caller callee => (intact.mirrored.agree caller callee).symm
  · exact fun key defined => intact.consistent.listed_once defined
  · exact ⟨intact.tidy.byName, intact.tidy.importers, intact.tidy.filesByStem,
      intact.mirrored.calleesTidy, intact.mirrored.callersTidy⟩
  · intro path caller callee edge
    obtain ⟨callerDefined, calleeDefined⟩ := (intact.remove path).anchored caller callee edge
    obtain ⟨source, fromSource⟩ := (mem_definitions_iff _ _).mp callerDefined
    obtain ⟨target, toTarget⟩ := (mem_definitions_iff _ _).mp calleeDefined
    exact ⟨source, target, fromSource, toTarget, intact.not_defined_of_removed fromSource,
      intact.not_defined_of_removed toTarget⟩

end CodeIndex.Graph
