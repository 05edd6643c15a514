import CodeIndex.Graph.Query
import CodeIndex.Proofs.Graph.Integrity
import CodeIndex.Proofs.Graph.Outline
import CodeIndex.Proofs.Ordered

/-!
Contract: the places that refer to a name, listed in one way only.

Owns:
- `Reference.byPlace`: references by path, then by line, then by kind;
- `Graph.Sourced`: a graph knows of each file what the last record of its path says, and nothing of
  other files;
- `Graph.Refers`: what refers to a name, read off definitions and records;
- `Graph.references_listed`: the list of references to a name is just this, in strict order.

Nothing is assumed of paths and names. Two files may then make the same key: the definition under it
is that of one of them, and a file that passes the name on counts it as defined.
-/

set_option autoImplicit false

namespace CodeIndex

/-! ## Order of references -/

theorem ReferenceKind.rank_inj {left right : ReferenceKind} (same : left.rank = right.rank) :
    left = right := by
  cases left <;> cases right <;> simp [ReferenceKind.rank] at same ⊢

namespace Reference

/-- By path, then by line, then by kind. -/
def byPlace : Reference → Reference → Ordering :=
  compareLex (compareOn fun reference => reference.path) <|
    compareLex (compareOn fun reference => reference.line)
      (compareOn fun reference => reference.kind.rank)

instance : Std.TransCmp byPlace := inferInstanceAs (Std.TransCmp (compareLex _ _))

/-- References at the same place are equal. -/
instance : Std.LawfulEqCmp byPlace where
  eq_of_compare := by
    intro left right alike
    simp only [byPlace, compareLex, compareOn, Ordering.then_eq_eq,
      Std.LawfulEqCmp.compare_eq_iff_eq] at alike
    obtain ⟨path, line, kind⟩ := alike
    cases left
    cases right
    rw [Reference.mk.injEq]
    exact ⟨ReferenceKind.rank_inj kind, path, line⟩

theorem le_eq : le = fun left right => (byPlace left right).isLE := by
  funext left right
  simp only [le, byPlace, compareLex, compareOn, Ordered.isLE_compare_then,
    Ordered.isLE_compare_text, Ordered.isLE_compare]

end Reference

namespace Graph

/-! ## Records behind a graph -/

/-- A definition is that of a declaration in the record under its path. -/
def DeclaredIn (records : Std.ExtTreeMap String Record) (definition : Definition) : Prop :=
  ∃ record, records[definition.path]? = some record ∧
    ∃ entry ∈ declarations record.symbols,
      definition = Definition.ofSymbol definition.path entry.1 entry.2

/-- A graph knows of each file what the record under its path says. -/
structure Sourced (graph : Graph) (records : Std.ExtTreeMap String Record) : Prop where
  definitions : ∀ (key : String) (definition : Definition),
    graph.definitions[key]? = some definition → DeclaredIn records definition
  outline : ∀ path, graph.outline path = .ofRecord records[path]?

/-- A definition of a graph with a new record was there before, or is one of the record's. -/
theorem definition_of_insert {graph : Graph} {record : Record} {key : String}
    {definition : Definition} (found : (graph.insert record).definitions[key]? = some definition) :
    graph.definitions[key]? = some definition ∨
      ∃ entry ∈ declarations record.symbols,
        definition = Definition.ofSymbol record.path entry.1 entry.2 := by
  have folded : ((declarations record.symbols).foldl (insertSymbol record.path)
      (graph.startFile record.path)).definitions[key]? = some definition := by
    obtain ⟨_, _, _, _, _, equal, inserted⟩ := insert_eq graph record
    rw [inserted] at found
    rw [equal]
    exact found
  revert folded
  refine List.foldlRecOn (motive := fun built : Graph =>
    built.definitions[key]? = some definition → _) (declarations record.symbols) _ Or.inl ?_
  intro built kept entry declared found
  rw [getElem?_definitions_insertSymbol, Option.or_eq_some_iff] at found
  rcases found with old | ⟨_, new⟩
  · exact kept old
  · split at new
    · exact .inr ⟨entry, declared, (Option.some.inj new).symm⟩
    · exact absurd new (by simp)

namespace Sourced

variable {graph : Graph} {records : Std.ExtTreeMap String Record}

theorem empty (limit : Nat) : Sourced (Graph.empty limit) ∅ where
  definitions := by simp [Graph.empty]
  outline := by simp [outline_empty]

/-- A definition that stays when a file is taken out is of another file. -/
theorem of_teardown (sourced : Sourced graph records) (consistent : graph.Consistent)
    {path key : String} {definition : Definition}
    (found : (graph.teardown path).definitions[key]? = some definition) :
    ¬ path = definition.path ∧ DeclaredIn records definition := by
  rw [getElem?_definitions_teardown] at found
  split at found
  · exact absurd found (by simp)
  · next foreign =>
      refine ⟨?_, sourced.definitions key definition found⟩
      intro home
      exact foreign ((consistent.listed path key).mpr ⟨definition, found, home.symm⟩)

theorem update (sourced : Sourced graph records) (consistent : graph.Consistent)
    (record : Record) : Sourced (graph.update record) (records.insert record.path record) where
  definitions := by
    intro key definition found
    rw [definitions_eq_of_bare (bare_update graph record)] at found
    rcases definition_of_insert found with old | ⟨entry, declared, rfl⟩
    · obtain ⟨elsewhere, kept⟩ := sourced.of_teardown consistent old
      simpa [DeclaredIn, Std.ExtTreeMap.getElem?_insert, elsewhere] using kept
    · exact ⟨record, Std.ExtTreeMap.getElem?_insert_self, entry, declared, rfl⟩
  outline := by
    intro path
    rw [outline_update, Std.ExtTreeMap.getElem?_insert, sourced.outline path]
    by_cases same : record.path = path <;> simp [same]

theorem remove (sourced : Sourced graph records) (consistent : graph.Consistent)
    (path : String) : Sourced (graph.remove path) (records.erase path) where
  definitions := by
    intro key definition found
    have kept : ¬ path = definition.path ∧ DeclaredIn records definition := by
      unfold Graph.remove at found
      split at found
      · rw [definitions_eq_of_bare (bare_relinkFiles _ _)] at found
        exact sourced.of_teardown consistent found
      · next absent =>
          -- A file that is not there has no record, and so no definitions.
          obtain ⟨record, recorded, declared⟩ := sourced.definitions key definition found
          refine ⟨?_, record, recorded, declared⟩
          rintro rfl
          have present := congrArg Outline.present (sourced.outline definition.path)
          rw [recorded] at present
          exact absent present
    obtain ⟨elsewhere, declared⟩ := kept
    simpa [DeclaredIn, Std.ExtTreeMap.getElem?_erase, elsewhere] using declared
  outline := by
    intro other
    rw [outline_remove (sourced.outline path), Std.ExtTreeMap.getElem?_erase,
      sourced.outline other]
    by_cases same : path = other <;> simp [same]

theorem applyTo (sourced : Sourced graph records) (consistent : graph.Consistent)
    (change : Change) : Sourced (change.applyTo graph) (change.note records) := by
  cases change with
  | update record => exact sourced.update consistent record
  | remove path => exact sourced.remove consistent path

theorem foldl (sourced : Sourced graph records) (intact : graph.Intact) (changes : List Change) :
    Sourced (changes.foldl Change.applyTo graph) (changes.foldl Change.note records) := by
  induction changes generalizing graph records with
  | nil => exact sourced
  | cons change rest inductionHypothesis =>
      rw [List.foldl_cons, List.foldl_cons]
      exact inductionHypothesis (sourced.applyTo intact.consistent change) (intact.applyTo change)

/-- After every run, a graph knows what the last record of each path says. -/
theorem run (limit : Nat) (changes : List Change) :
    Sourced (Graph.run limit changes) (lastRecords changes) :=
  (Sourced.empty limit).foldl (Intact.empty limit) changes

theorem imports (sourced : Sourced graph records) (path : String) :
    graph.imports[path]? = records[path]?.map (·.imports) :=
  congrArg Outline.imports (sourced.outline path)

theorem exports (sourced : Sourced graph records) (path : String) :
    graph.exports[path]? = records[path]?.map (·.exports) :=
  congrArg Outline.exports (sourced.outline path)

end Sourced

/-! ## What refers to a name -/

/-- What refers to a name: a definition that has it; an import of it, or of everything, in a file
with a record; and an export that passes it on, in such a file that does not define it. -/
inductive Refers (graph : Graph) (records : Std.ExtTreeMap String Record) (name : String) :
    Reference → Prop where
  | definition (key : String) (definition : Definition)
      (found : graph.definitions[key]? = some definition) (named : definition.name = name) :
      Refers graph records name ⟨.definition, definition.path, definition.line⟩
  | imported (path : String) (record : Record) (statement : Import)
      (indexed : records[path]? = some record) (member : statement ∈ record.imports)
      (binds : name ∈ statement.names ∨ wildcard ∈ statement.names) :
      Refers graph records name ⟨.imported, path, statement.line⟩
  | passedOn (path : String) (record : Record) (entry : Export)
      (indexed : records[path]? = some record) (member : entry ∈ record.exports)
      (kind : entry.kind = .reexport) (named : entry.name = name)
      (foreign : ¬ qualifiedKey path name ∈ graph.definitions) :
      Refers graph records name ⟨.passedOn, path, entry.line⟩

theorem mem_definitionReferences {graph : Graph} (consistent : graph.Consistent) (name : String)
    (reference : Reference) :
    reference ∈ graph.definitionReferences name ↔
      ∃ (key : String) (definition : Definition), graph.definitions[key]? = some definition ∧
        definition.name = name ∧ reference = ⟨.definition, definition.path, definition.line⟩ := by
  simp only [definitionReferences, Graph.named, definitionsOf, List.mem_map, List.mem_filterMap,
    Std.ExtTreeSet.mem_toList, consistent.named]
  constructor
  · rintro ⟨definition, ⟨key, ⟨same, again, named⟩, found⟩, rfl⟩
    obtain rfl := Option.some.inj (found.symm.trans again)
    exact ⟨key, definition, found, named, rfl⟩
  · rintro ⟨key, definition, found, named, rfl⟩
    exact ⟨definition, ⟨key, ⟨definition, found, named⟩, found⟩, rfl⟩

theorem mem_importReferences (graph : Graph) (name : String) (reference : Reference) :
    reference ∈ graph.importReferences name ↔
      ∃ (path : String) (statements : List Import) (statement : Import),
        graph.imports[path]? = some statements ∧ statement ∈ statements ∧
        (name ∈ statement.names ∨ wildcard ∈ statement.names) ∧
        reference = ⟨.imported, path, statement.line⟩ := by
  have binds : ∀ names : List String,
      (names.any fun imported => imported == name || imported == wildcard) = true ↔
        name ∈ names ∨ wildcard ∈ names := by
    intro names
    simp only [List.any_eq_true, Bool.or_eq_true, beq_iff_eq]
    constructor
    · rintro ⟨imported, member, rfl | rfl⟩
      · exact .inl member
      · exact .inr member
    · rintro (member | member)
      · exact ⟨name, member, .inl rfl⟩
      · exact ⟨wildcard, member, .inr rfl⟩
  simp only [importReferences, List.mem_flatMap, List.mem_map, List.mem_filter, binds, Prod.exists,
    Std.ExtTreeMap.mem_toList_iff_getElem?_eq_some]
  constructor
  · rintro ⟨path, statements, found, statement, ⟨member, bound⟩, rfl⟩
    exact ⟨path, statements, statement, found, member, bound, rfl⟩
  · rintro ⟨path, statements, statement, found, member, bound, rfl⟩
    exact ⟨path, statements, found, statement, ⟨member, bound⟩, rfl⟩

theorem mem_passedOnReferences (graph : Graph) (name : String) (reference : Reference) :
    reference ∈ graph.passedOnReferences name ↔
      ∃ (path : String) (entries : List Export) (entry : Export),
        graph.exports[path]? = some entries ∧ entry ∈ entries ∧ entry.kind = .reexport ∧
        entry.name = name ∧ ¬ qualifiedKey path name ∈ graph.definitions ∧
        reference = ⟨.passedOn, path, entry.line⟩ := by
  simp only [passedOnReferences, List.mem_flatMap, Prod.exists,
    Std.ExtTreeMap.mem_toList_iff_getElem?_eq_some, Std.ExtTreeMap.contains_iff_mem]
  constructor
  · rintro ⟨path, entries, found, listed⟩
    split at listed
    · exact absurd listed List.not_mem_nil
    · next foreign =>
        simp only [List.mem_map, List.mem_filter, Bool.and_eq_true, beq_iff_eq] at listed
        obtain ⟨entry, ⟨member, kind, named⟩, rfl⟩ := listed
        exact ⟨path, entries, entry, found, member, kind, named, foreign, rfl⟩
  · rintro ⟨path, entries, entry, found, member, kind, named, foreign, rfl⟩
    refine ⟨path, entries, found, ?_⟩
    rw [if_neg foreign]
    simp only [List.mem_map, List.mem_filter, Bool.and_eq_true, beq_iff_eq]
    exact ⟨entry, ⟨member, kind, named⟩, rfl⟩

/-- References in any order, sorted and rid of repetitions. -/
theorem pairwise_byPlace (found : List Reference) :
    (found.mergeSort Reference.le).eraseReps.Pairwise
      fun left right => Reference.byPlace left right = .lt := by
  rw [Reference.le_eq]
  exact Ordered.pairwise_lt_eraseReps (Ordered.pairwise_mergeSort found)

theorem mem_references {graph : Graph} {records : Std.ExtTreeMap String Record}
    (consistent : graph.Consistent) (sourced : Sourced graph records) (name : String)
    (reference : Reference) :
    reference ∈ graph.references name ↔ graph.Refers records name reference := by
  simp only [references, Ordered.mem_eraseReps, List.mem_mergeSort, List.mem_append,
    mem_definitionReferences consistent, mem_importReferences, mem_passedOnReferences,
    sourced.imports, sourced.exports, Option.map_eq_some_iff]
  constructor
  · rintro ((⟨key, definition, found, named, rfl⟩ |
      ⟨path, _, statement, ⟨record, indexed, rfl⟩, member, binds, rfl⟩) |
      ⟨path, _, entry, ⟨record, indexed, rfl⟩, member, kind, named, foreign, rfl⟩)
    · exact .definition key definition found named
    · exact .imported path record statement indexed member binds
    · exact .passedOn path record entry indexed member kind named foreign
  · intro refers
    cases refers with
    | definition key definition found named =>
        exact .inl (.inl ⟨key, definition, found, named, rfl⟩)
    | imported path record statement indexed member binds =>
        exact .inl (.inr ⟨path, _, statement, ⟨record, indexed, rfl⟩, member, binds, rfl⟩)
    | passedOn path record entry indexed member kind named foreign =>
        exact .inr ⟨path, _, entry, ⟨record, indexed, rfl⟩, member, kind, named, foreign, rfl⟩

/-- In every graph, the references to a name are listed in strict order by path, line and kind, so
each once. The list has just what refers to the name in the records that are there at the end, and
it comes out in whatever order, and however often, the references were gathered. No definition is
left of a record that is gone. -/
theorem references_listed (limit : Nat) (changes : List Change) (name : String) :
    let graph := run limit changes
    let records := lastRecords changes
    (graph.references name).Pairwise (fun left right => Reference.byPlace left right = .lt) ∧
    (graph.references name).Nodup ∧
    (∀ reference, reference ∈ graph.references name ↔ graph.Refers records name reference) ∧
    (∀ found : List Reference,
      (∀ reference, reference ∈ found ↔ graph.Refers records name reference) →
        (found.mergeSort Reference.le).eraseReps = graph.references name) ∧
    ∀ (key : String) (definition : Definition), graph.definitions[key]? = some definition →
      DeclaredIn records definition := by
  intro graph records
  have sourced : Sourced graph records := Sourced.run limit changes
  have members := mem_references (Intact.run limit changes).consistent sourced name
  have ascends : (graph.references name).Pairwise
      fun left right => Reference.byPlace left right = .lt := pairwise_byPlace _
  refine ⟨ascends, Ordered.nodup_of_pairwise_lt ascends, members, ?_, sourced.definitions⟩
  intro found gathered
  apply Ordered.eq_of_pairwise_lt (pairwise_byPlace found) ascends
  intro reference
  rw [Ordered.mem_eraseReps, List.mem_mergeSort, gathered, members]

end Graph

end CodeIndex
