import CodeIndex.Graph.Query
import CodeIndex.Proofs.Graph.View

/-!
Contract: which definitions a called name stands for, said without the look-ups.

Owns:
- `Graph.Target`: the definitions that a name stands for in a file, by what files define and import;
- `Graph.Shows.mem_resolveCall`: these are the ones that are found;
- `Graph.DifferAt.resolveCall_eq`: a file that does not depend on another one does not notice its
  changes.

A name stands for the definitions of its own file. If there are none, the first import that leads to
a definition decides; if there is none either, the name stands for all its definitions, unless there
are too many.
-/

set_option autoImplicit false

namespace CodeIndex.Graph

/-! ## Targets -/

/-- A definition with a bare name. -/
def Named (graph : Graph) (name key : String) : Prop :=
  ∃ definition, graph.definitions[key]? = some definition ∧ definition.name = name

/-- A definition of a file with a bare name. -/
def OwnTarget (graph : Graph) (path name key : String) : Prop :=
  ∃ definition, graph.definitions[key]? = some definition ∧ definition.name = name ∧
    definition.path = path

/-- An import binds a local name to an exported one. A wildcard binds every other name to itself. -/
def Binds (statement : Import) (name exported : String) : Prop :=
  statement.importedName? name = some exported ∨
    (statement.importedName? name = none ∧ statement.hasWildcard = true ∧ exported = name)

/-- A file that a stem leads to defines a name outside of any owner. Only a name with a dot in it,
which is no name of a module's own, can also be that of a member. -/
def Offers (graph : Graph) (stem exported file key : String) : Prop :=
  graph.containsFile file = true ∧ stem ∈ Specifier.fileStems file ∧
    ∃ definition, graph.definitions[key]? = some definition ∧ definition.path = file ∧
      definition.qualifiedName = exported ∧
      (definition.parent = none ∨ '.' ∈ exported.toList)

/-- A relative import leads a name to a definition: of the files that its stem leads to and that
define the exported name, the smallest one counts. -/
def LeadsTo (graph : Graph) (path name : String) (statement : Import) (key : String) : Prop :=
  ∃ exported stem file,
    Specifier.isRelative statement.source = true ∧
      Binds statement name exported ∧
      Specifier.stem? path statement.source = some stem ∧
      graph.Offers stem exported file key ∧
      ∀ other otherKey, graph.Offers stem exported other otherKey → file ≤ other

/-- The first import of a file that leads a name to a definition. -/
def ImportTarget (graph : Graph) (path name key : String) : Prop :=
  ∃ before statement after,
    graph.importsOf path = before ++ statement :: after ∧
      graph.LeadsTo path name statement key ∧
      ∀ earlier ∈ before, ∀ other, ¬ graph.LeadsTo path name earlier other

/-- The number of definitions with a bare name. -/
def nameCount (graph : Graph) (name : String) : Nat :=
  (graph.definitions.filter fun _ definition => definition.name == name).size

/-- The definitions that a name stands for in a file. -/
inductive Target (graph : Graph) (path name key : String) : Prop where
  | own (found : graph.OwnTarget path name key)
  | imported (noOwn : ∀ other, ¬ graph.OwnTarget path name other)
      (found : graph.ImportTarget path name key)
  | anywhere (noOwn : ∀ other, ¬ graph.OwnTarget path name other)
      (noImport : ∀ other, ¬ graph.ImportTarget path name other)
      (found : graph.Named name key) (few : graph.nameCount name ≤ graph.fallbackLimit)

/-! ## Imports -/

theorem binds_iff (statement : Import) (name exported : String) :
    Binds statement name exported ↔ boundName? statement name = some exported := by
  unfold Binds boundName?
  cases statement.importedName? name with
  | none =>
      by_cases every : statement.hasWildcard = true
      · simp [every, eq_comm]
      · simp [every]
  | some bound => simp

theorem topLevel?_eq_some (graph : Graph) (path name key : String) :
    graph.topLevel? path name = some key ↔
      key = qualifiedKey path name ∧ key ∈ graph.definitions := by
  unfold topLevel?
  by_cases defined : qualifiedKey path name ∈ graph.definitions
  · simp only [Std.ExtTreeMap.contains_iff_mem, defined, if_true, Option.some.injEq]
    constructor
    · rintro rfl
      exact ⟨rfl, defined⟩
    · exact fun both => both.1.symm
  · simp only [Std.ExtTreeMap.contains_iff_mem, defined, if_false, reduceCtorEq, false_iff]
    rintro ⟨rfl, member⟩
    exact defined member

namespace Shows

variable {graph : Graph} {files : String → Option Contents}

/-- Only the name of a member has its owner's before it. -/
theorem parent_eq_none_or_dotted (shows : Shows graph files) {key : String}
    {definition : Definition} (found : graph.definitions[key]? = some definition) :
    definition.parent = none ∨ '.' ∈ definition.qualifiedName.toList := by
  rw [shows.getElem?_definitions] at found
  obtain ⟨⟨symbol, parent⟩, _, _, rfl⟩ := exists_of_declared? found
  cases parent with
  | none => exact Or.inl rfl
  | some owner =>
      right
      change '.' ∈ (owner.name ++ "." ++ symbol.name).toList
      simp

theorem offers_iff (shows : Shows graph files) (stem exported file key : String) :
    graph.Offers stem exported file key ↔
      file ∈ graph.filesByStem.values stem ∧ graph.topLevel? file exported = some key := by
  rw [topLevel?_eq_some, shows.mem_filesByStem, Offers, and_assoc]
  refine and_congr_right fun present => and_congr_right fun _ => ?_
  have plain : Plain file := shows.plain file ((shows.containsFile_iff file).mp present)
  constructor
  · rintro ⟨definition, found, rfl, rfl, _⟩
    refine ⟨(shows.definition_spec found).2.1, ?_⟩
    exact Std.ExtTreeMap.mem_iff_isSome_getElem?.mpr (by simp [found])
  · rintro ⟨made, member⟩
    obtain ⟨definition, found⟩ := Option.isSome_iff_exists.mp
      (Std.ExtTreeMap.mem_iff_isSome_getElem?.mp member)
    obtain ⟨home, key_eq, _⟩ := shows.definition_spec found
    have inFile : definition.path = file := by
      rw [home, made, ownerOf_qualifiedKey plain]
    rw [made, inFile, qualifiedKey_inj] at key_eq
    subst key_eq
    exact ⟨definition, found, inFile, rfl, shows.parent_eq_none_or_dotted found⟩

/-- The first file that defines a name is the smallest one. -/
theorem findSome?_topLevel? (shows : Shows graph files) (stem exported key : String) :
    (graph.filesByStem.values stem).toList.findSome?
        (fun file => graph.topLevel? file exported) = some key ↔
      ∃ file, graph.Offers stem exported file key ∧
        ∀ other otherKey, graph.Offers stem exported other otherKey → file ≤ other := by
  have first : ∀ found, (graph.filesByStem.values stem).toList.findSome?
      (fun file => graph.topLevel? file exported) = some found →
      ∃ file, graph.Offers stem exported file found ∧
        ∀ other otherKey, graph.Offers stem exported other otherKey → file ≤ other := by
    intro found isFirst
    obtain ⟨before, file, after, split, defined, noneBefore⟩ :=
      List.findSome?_eq_some_iff.mp isFirst
    have listed : file ∈ graph.filesByStem.values stem := by
      rw [← Std.ExtTreeSet.mem_toList, split]
      simp
    refine ⟨file, (shows.offers_iff stem exported file found).mpr ⟨listed, defined⟩, ?_⟩
    intro other otherKey offered
    obtain ⟨otherListed, otherDefined⟩ :=
      (shows.offers_iff stem exported other otherKey).mp offered
    have ordered := Std.ExtTreeSet.ordered_toList (t := graph.filesByStem.values stem)
    rw [← Std.ExtTreeSet.mem_toList, split, List.mem_append, List.mem_cons] at otherListed
    rw [split, List.pairwise_append, List.pairwise_cons] at ordered
    rcases otherListed with earlier | rfl | later
    · rw [noneBefore other earlier] at otherDefined
      exact absurd otherDefined (by simp)
    · exact String.le_refl other
    · have less : file < other := compareOfLessAndEq_eq_lt.mp (ordered.2.1.1 other later)
      exact String.not_lt.mp (String.lt_asymm less)
  constructor
  · exact first key
  · rintro ⟨file, offered, smallest⟩
    obtain ⟨listed, defined⟩ := (shows.offers_iff stem exported file key).mp offered
    have present : ((graph.filesByStem.values stem).toList.findSome?
        (fun file => graph.topLevel? file exported)).isSome := by
      rw [List.findSome?_isSome_iff]
      exact ⟨file, Std.ExtTreeSet.mem_toList.mpr listed, by simp [defined]⟩
    obtain ⟨found, isFirst⟩ := Option.isSome_iff_exists.mp present
    obtain ⟨other, otherOffered, otherSmallest⟩ := first found isFirst
    have same : file = other :=
      String.le_antisymm (smallest other found otherOffered) (otherSmallest file key offered)
    have otherDefined := ((shows.offers_iff stem exported other found).mp otherOffered).2
    rw [← same, defined] at otherDefined
    rw [isFirst, otherDefined]

theorem leadsTo_iff (shows : Shows graph files) (path name : String) (statement : Import)
    (key : String) :
    graph.LeadsTo path name statement key ↔
      graph.resolveImport? path name statement = some key := by
  constructor
  · rintro ⟨exported, stem, file, relative, bound, leads, offered, smallest⟩
    rw [binds_iff] at bound
    simp only [resolveImport?, relative, if_true, bound, leads]
    exact (shows.findSome?_topLevel? stem exported key).mpr ⟨file, offered, smallest⟩
  · intro found
    unfold resolveImport? at found
    split at found
    · next relative =>
        split at found
        · next exported stem bound leads =>
            obtain ⟨file, offered, smallest⟩ :=
              (shows.findSome?_topLevel? stem exported key).mp found
            exact ⟨exported, stem, file, relative, (binds_iff _ _ _).mpr bound, leads, offered,
              smallest⟩
        · simp at found
    · simp at found

theorem mem_resolveThroughImports (shows : Shows graph files) (path name key : String) :
    key ∈ graph.resolveThroughImports path name ↔ graph.ImportTarget path name key := by
  rw [resolveThroughImports, Option.mem_toList, List.findSome?_eq_some_iff]
  simp only [← shows.leadsTo_iff, Option.eq_none_iff_forall_ne_some, ne_eq]
  rfl

/-! ## All tiers -/

theorem mem_sameFile (shows : Shows graph files) (path name key : String) :
    key ∈ graph.sameFile path (graph.byName.values name).toList ↔
      graph.OwnTarget path name key := by
  rw [sameFile, List.mem_filter, Std.ExtTreeSet.mem_toList, shows.mem_byName, OwnTarget]
  cases graph.definitions[key]? with
  | none => simp
  | some definition => simp

theorem size_byName (shows : Shows graph files) (name : String) :
    (graph.byName.values name).size = graph.nameCount name := by
  have distinct : (graph.byName.values name).toList.Nodup := by
    refine (Std.ExtTreeSet.distinct_toList (t := graph.byName.values name)).imp ?_
    intro left right different same
    exact different (same ▸ Std.ReflCmp.compare_self)
  have listed : ∀ key, key ∈ (graph.byName.values name).toList ↔
      key ∈ (graph.definitions.filter fun _ definition => definition.name == name).keys := by
    intro key
    rw [Std.ExtTreeSet.mem_toList, shows.mem_byName, Std.ExtTreeMap.mem_keys,
      Std.ExtTreeMap.mem_iff_isSome_getElem?, Std.ExtTreeMap.getElem?_filter']
    cases graph.definitions[key]? with
    | none => simp
    | some definition => simp
  rw [nameCount, ← Std.ExtTreeSet.length_toList, ← Std.ExtTreeMap.length_keys]
  exact ((List.perm_ext_iff_of_nodup distinct Std.ExtTreeMap.nodup_keys).mpr listed).length_eq

end Shows

/-- The tiers of a resolution, with the candidates as a set that may be empty. -/
theorem resolveCall_eq (graph : Graph) (path name : String) :
    graph.resolveCall path name =
      if graph.sameFile path (graph.byName.values name).toList ≠ [] then
        graph.sameFile path (graph.byName.values name).toList
      else if graph.resolveThroughImports path name ≠ [] then
        graph.resolveThroughImports path name
      else if (graph.byName.values name).size ≤ graph.fallbackLimit then
        (graph.byName.values name).toList
      else [] := by
  unfold resolveCall
  rw [Multimap.values_eq]
  cases graph.byName[name]? with
  | none =>
      have nothing : (∅ : Std.ExtTreeSet String).toList = [] := by simp
      simp only [Option.getD_none, nothing, sameFile, List.filter_nil]
      cases graph.resolveThroughImports path name <;> simp
  | some candidates =>
      simp only [Option.getD_some]
      cases graph.sameFile path candidates.toList with
      | nil => cases graph.resolveThroughImports path name <;> simp
      | cons first rest => simp

section Found

variable {graph : Graph} {files : String → Option Contents}

theorem Shows.sameFile_eq_nil (shows : Shows graph files) (path name : String) :
    graph.sameFile path (graph.byName.values name).toList = [] ↔
      ∀ key, ¬ graph.OwnTarget path name key := by
  simp only [List.eq_nil_iff_forall_not_mem, shows.mem_sameFile]

theorem Shows.resolveThroughImports_eq_nil (shows : Shows graph files) (path name : String) :
    graph.resolveThroughImports path name = [] ↔ ∀ key, ¬ graph.ImportTarget path name key := by
  simp only [List.eq_nil_iff_forall_not_mem, shows.mem_resolveThroughImports]

/-- The definitions that are found for a name are those that it stands for. -/
theorem Shows.mem_resolveCall (shows : Shows graph files) (path name key : String) :
    key ∈ graph.resolveCall path name ↔ graph.Target path name key := by
  have noOwn := shows.sameFile_eq_nil path name
  have noImport := shows.resolveThroughImports_eq_nil path name
  have count := shows.size_byName name
  rw [resolveCall_eq]
  constructor
  · intro member
    split at member
    · exact .own ((shows.mem_sameFile path name key).mp member)
    · next own =>
        have noneOwn := noOwn.mp (Classical.not_not.mp own)
        split at member
        · exact .imported noneOwn ((shows.mem_resolveThroughImports path name key).mp member)
        · next imported =>
            split at member
            · next few =>
                exact .anywhere noneOwn (noImport.mp (Classical.not_not.mp imported))
                  ((shows.mem_byName name key).mp (Std.ExtTreeSet.mem_toList.mp member))
                  (count ▸ few)
            · simp at member
  · rintro (found | ⟨noneOwn, found⟩ | ⟨noneOwn, noneImported, found, few⟩)
    · have own : graph.sameFile path (graph.byName.values name).toList ≠ [] :=
        fun nothing => noOwn.mp nothing key found
      rw [if_pos own]
      exact (shows.mem_sameFile path name key).mpr found
    · have imported : graph.resolveThroughImports path name ≠ [] :=
        fun nothing => noImport.mp nothing key found
      rw [if_neg (Classical.not_not.mpr (noOwn.mpr noneOwn)), if_pos imported]
      exact (shows.mem_resolveThroughImports path name key).mpr found
    · rw [if_neg (Classical.not_not.mpr (noOwn.mpr noneOwn)),
        if_neg (Classical.not_not.mpr (noImport.mpr noneImported)), if_pos (count ▸ few)]
      exact Std.ExtTreeSet.mem_toList.mpr ((shows.mem_byName name key).mpr found)

end Found

/-! ## Files that do not notice a change -/

private theorem findSome?_congr {α β : Type} {items : List α} {left right : α → Option β}
    (same : ∀ item ∈ items, left item = right item) :
    items.findSome? left = items.findSome? right := by
  induction items with
  | nil => rfl
  | cons first rest inductionHypothesis =>
      rw [List.findSome?_cons, List.findSome?_cons, same first (by simp),
        inductionHypothesis fun item member => same item (by simp [member])]

/-- Two views of files that differ in one file at most. -/
structure DifferAt (path : String) (before after : Graph) (old new : String → Option Contents) :
    Prop where
  showsOld : Shows before old
  showsNew : Shows after new
  same : ∀ other, ¬ path = other → old other = new other
  limits : before.fallbackLimit = after.fallbackLimit

namespace DifferAt

variable {path : String} {before after : Graph} {old new : String → Option Contents}

theorem symm (differ : DifferAt path before after old new) :
    DifferAt path after before new old :=
  ⟨differ.showsNew, differ.showsOld, fun other different => (differ.same other different).symm,
    differ.limits.symm⟩

theorem getElem?_definitions (differ : DifferAt path before after old new) {key : String}
    (foreign : ¬ path = ownerOf key) : before.definitions[key]? = after.definitions[key]? := by
  rw [differ.showsOld.getElem?_definitions, differ.showsNew.getElem?_definitions,
    differ.same _ foreign]

theorem rawCalls (differ : DifferAt path before after old new) {key : String}
    (foreign : ¬ path = ownerOf key) :
    before.rawCalls.getD key [] = after.rawCalls.getD key [] := by
  rw [Std.ExtTreeMap.getD_eq_getD_getElem?, Std.ExtTreeMap.getD_eq_getD_getElem?,
    (differ.showsOld.file (ownerOf key)).declares.rawCalls key rfl,
    (differ.showsNew.file (ownerOf key)).declares.rawCalls key rfl, differ.same _ foreign]

theorem imports (differ : DifferAt path before after old new) {other : String}
    (different : ¬ path = other) :
    before.imports.getD other [] = after.imports.getD other [] := by
  rw [Std.ExtTreeMap.getD_eq_getD_getElem?, Std.ExtTreeMap.getD_eq_getD_getElem?,
    (differ.showsOld.file other).imports, (differ.showsNew.file other).imports,
    differ.same other different]

theorem mem_calledNames (differ : DifferAt path before after old new) {other name : String}
    (different : ¬ path = other) (called : other ∈ before.calledNames.values name) :
    other ∈ after.calledNames.values name := by
  rw [(differ.showsNew.file other).declares.calledNames, ← differ.same other different,
    ← (differ.showsOld.file other).declares.calledNames]
  exact called

/-- A definition of the changed file has no name that an unaffected file calls. -/
theorem not_mem_byName (differ : DifferAt path before after old new) {caller name key : String}
    (unaffected : ¬ caller ∈ before.dependents path)
    (called : caller ∈ before.calledNames.values name) (owned : path = ownerOf key) :
    ¬ key ∈ before.byName.values name := by
  intro named
  apply unaffected
  rw [mem_dependents]
  refine Or.inl ⟨name, ?_, called⟩
  exact (differ.showsOld.mem_namesIn path name).mpr ⟨key, owned.symm, named⟩

/-- An import of an unaffected file does not lead to the changed file. -/
theorem not_mem_fileStems (differ : DifferAt path before after old new) {caller stem : String}
    {statement : Import} (unaffected : ¬ caller ∈ before.dependents path)
    (member : statement ∈ before.imports.getD caller [])
    (leads : Specifier.stem? caller statement.source = some stem) :
    ¬ stem ∈ Specifier.fileStems path := by
  intro reached
  apply unaffected
  rw [mem_dependents]
  exact Or.inr ⟨stem, reached, differ.showsOld.mem_importers member leads⟩

theorem byName_eq (differ : DifferAt path before after old new) {caller name : String}
    (different : ¬ path = caller) (unaffected : ¬ caller ∈ before.dependents path)
    (stillUnaffected : ¬ caller ∈ after.dependents path)
    (called : caller ∈ before.calledNames.values name) :
    before.byName.values name = after.byName.values name := by
  apply Std.ExtTreeSet.ext_mem
  intro key
  by_cases owned : path = ownerOf key
  · have stillCalled := differ.mem_calledNames different called
    exact iff_of_false (differ.not_mem_byName unaffected called owned)
      (differ.symm.not_mem_byName stillUnaffected stillCalled owned)
  · rw [differ.showsOld.mem_byName, differ.showsNew.mem_byName, differ.getElem?_definitions owned]

theorem filesByStem_eq (differ : DifferAt path before after old new) {stem : String}
    (foreign : ¬ stem ∈ Specifier.fileStems path) :
    before.filesByStem.values stem = after.filesByStem.values stem := by
  apply Std.ExtTreeSet.ext_mem
  intro file
  rw [(differ.showsOld.file file).filesByStem, (differ.showsNew.file file).filesByStem]
  by_cases changed : path = file
  · subst changed
    exact iff_of_false (fun both => foreign both.2) (fun both => foreign both.2)
  · rw [differ.same file changed]

theorem topLevel?_eq (differ : DifferAt path before after old new) {file : String}
    (plain : Plain file) (different : ¬ path = file) (name : String) :
    before.topLevel? file name = after.topLevel? file name := by
  have foreign : ¬ path = ownerOf (qualifiedKey file name) := by
    rwa [ownerOf_qualifiedKey plain]
  simp only [topLevel?, Std.ExtTreeMap.contains_eq_isSome_getElem?,
    differ.getElem?_definitions foreign]

theorem resolveImport?_eq (differ : DifferAt path before after old new) {caller : String}
    {statement : Import} (unaffected : ¬ caller ∈ before.dependents path)
    (member : statement ∈ before.imports.getD caller []) (name : String) :
    before.resolveImport? caller name statement = after.resolveImport? caller name statement := by
  unfold resolveImport?
  cases leads : Specifier.stem? caller statement.source with
  | none => cases boundName? statement name <;> rfl
  | some stem =>
      cases boundName? statement name with
      | none => rfl
      | some exported =>
          have foreign := differ.not_mem_fileStems unaffected member leads
          have found : (before.filesByStem.values stem).toList.findSome?
                (fun file => before.topLevel? file exported) =
              (after.filesByStem.values stem).toList.findSome?
                fun file => after.topLevel? file exported := by
            rw [← differ.filesByStem_eq foreign]
            apply findSome?_congr
            intro file listed
            rw [Std.ExtTreeSet.mem_toList, (differ.showsOld.file file).filesByStem] at listed
            apply differ.topLevel?_eq (differ.showsOld.plain file listed.1)
            rintro rfl
            exact foreign listed.2
          simp only [found]

/-- A file that depends on the changed file neither before nor after the change calls the same
definitions. -/
theorem resolveCall_eq (differ : DifferAt path before after old new) {caller name : String}
    (different : ¬ path = caller) (unaffected : ¬ caller ∈ before.dependents path)
    (stillUnaffected : ¬ caller ∈ after.dependents path)
    (called : caller ∈ before.calledNames.values name) :
    before.resolveCall caller name = after.resolveCall caller name := by
  have candidates := differ.byName_eq different unaffected stillUnaffected called
  have own : before.sameFile caller (before.byName.values name).toList =
      after.sameFile caller (before.byName.values name).toList := by
    apply List.filter_congr
    intro key listed
    have foreign : ¬ path = ownerOf key := fun owned =>
      differ.not_mem_byName unaffected called owned (Std.ExtTreeSet.mem_toList.mp listed)
    rw [differ.getElem?_definitions foreign]
  have imported : before.resolveThroughImports caller name =
      after.resolveThroughImports caller name := by
    rw [resolveThroughImports, resolveThroughImports, ← differ.imports different]
    rw [findSome?_congr fun statement member =>
      differ.resolveImport?_eq unaffected member name]
  rw [Graph.resolveCall_eq, Graph.resolveCall_eq, own, imported, candidates, differ.limits]

end DifferAt

end CodeIndex.Graph
