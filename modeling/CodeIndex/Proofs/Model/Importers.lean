import CodeIndex.Proofs.Graph.Integrity
import CodeIndex.Proofs.Model.Reached

/-!
Contract: catalog and graph agree on who imports whom.

Owns:
- `Graph.Traced`: the importers of a stem are the files whose imports lead to it;
- `Model.importers_reached`: graph and catalog keep the same importers;
- `Model.importers_exact`: both give the importers of a file that the records say.

The catalog enters records among the importers and the graph enters imports and exports. Both use
the same stems, and neither keeps a stem without importers, so it is enough that they have the same
pairs.
-/

set_option autoImplicit false

namespace CodeIndex

namespace Graph

/-- The sources that an outline imports or passes on. -/
def Outline.specifiers (outline : Outline) : List String :=
  (outline.imports.getD []).map (·.source) ++ (outline.exports.getD []).filterMap (·.source)

theorem specifiersIn_eq (graph : Graph) (path : String) :
    graph.specifiersIn path = (graph.outline path).specifiers := by
  simp only [specifiersIn, Outline.specifiers, outline, Std.ExtTreeMap.getD_eq_getD_getElem?]

theorem Outline.specifiers_ofRecord (record : Option Record) :
    (Outline.ofRecord record).specifiers = record.toList.flatMap (·.specifiers) := by
  cases record with
  | none => rfl
  | some present => simp [Outline.specifiers, Outline.ofRecord, Record.specifiers]

/-- The importers of a stem are the files whose imports and passed-on exports lead to it. -/
def Traced (graph : Graph) : Prop :=
  ∀ stem path, path ∈ graph.importers.values stem ↔
    stem ∈ importedStems path (graph.outline path).specifiers

namespace Traced

variable {graph : Graph}

theorem empty (limit : Nat) : (Graph.empty limit).Traced := by
  intro stem path
  rw [outline_empty]
  simp [Graph.empty, Outline.specifiers_ofRecord, importedStems]

theorem of_bare {left right : Graph} (same : left.bare = right.bare) (traced : right.Traced) :
    left.Traced := by
  intro stem path
  have importers : left.bare.importers = right.bare.importers := by rw [same]
  rw [outline_eq_of_bare same, ← traced stem path]
  exact iff_of_eq (congrArg (fun known : Multimap => path ∈ known.values stem) importers)

theorem teardown (traced : graph.Traced) (path : String) : (graph.teardown path).Traced := by
  intro stem other
  rw [mem_importers_teardown, outline_teardown, traced stem other, specifiersIn_eq]
  by_cases same : path = other
  · subst same
    simp [Outline.specifiers_ofRecord, importedStems]
  · simp [same]

/-- A file that was taken out before has no pairs left to go wrong. -/
theorem insert (traced : graph.Traced) (record : Record)
    (absent : graph.outline record.path = .ofRecord none) : (graph.insert record).Traced := by
  intro stem other
  have pairs : other ∈ (graph.insert record).importers.values stem ↔
      (stem ∈ importedStems record.path record.specifiers ∧ record.path = other) ∨
        other ∈ graph.importers.values stem := by
    obtain ⟨_, _, _, _, _, _, inserted⟩ := insert_eq graph record
    rw [inserted]
    exact Multimap.mem_values_foldl_add _ _ _ _ _
  rw [pairs, outline_insert, traced stem other]
  by_cases same : record.path = other
  · subst same
    simp [absent, Outline.specifiers_ofRecord, importedStems]
  · simp [same]

theorem update (traced : graph.Traced) (record : Record) : (graph.update record).Traced := by
  apply of_bare (bare_update graph record)
  apply (traced.teardown record.path).insert
  rw [outline_teardown, if_pos rfl]

theorem remove (traced : graph.Traced) (path : String) : (graph.remove path).Traced := by
  unfold Graph.remove
  split
  · exact of_bare (bare_relinkFiles _ _) (traced.teardown path)
  · exact traced

end Traced

end Graph

theorem toList_erase (set : Std.ExtTreeSet String) (path : String) :
    (set.erase path).toList = set.toList.filter (· != path) := by
  have same : set.erase path = set.filter (· != path) := by
    apply Std.ExtTreeSet.ext_mem
    intro other
    rw [Std.ExtTreeSet.mem_erase, Std.ExtTreeSet.mem_filter, and_comm]
    simp only [ne_eq, Std.LawfulEqCmp.compare_eq_iff_eq, Std.ExtTreeSet.get_eq, bne_iff_ne,
      exists_prop, @eq_comm _ path]
  rw [same, Std.ExtTreeSet.toList_filter]

namespace Model

section Reached

variable (workspace : Workspace) (config : Config) (origin : Origin) (actions : List Action)
  (enabled : Bool)

theorem importers_reached :
    (reached workspace config origin actions enabled).graph.importers =
      (reached workspace config origin actions enabled).catalog.importers := by
  have exact := exact_reached workspace config origin actions enabled
  have aligned := aligned_reached workspace config origin actions enabled
  have traced : (reached workspace config origin actions enabled).graph.Traced :=
    graph_reached Graph.Traced.empty (fun _ record traced => traced.update record)
      (fun _ path traced => traced.remove path) workspace config origin actions enabled
  have intact : (reached workspace config origin actions enabled).graph.Intact :=
    graph_reached Graph.Intact.empty (fun _ record intact => intact.update record)
      (fun _ path intact => intact.remove path) workspace config origin actions enabled
  generalize reached workspace config origin actions enabled = model
    at exact aligned traced intact ⊢
  apply Multimap.ext_of_tidy intact.tidy.importers exact.tidy
  intro stem path
  rw [traced stem path, (aligned.shown path).outline, Graph.Outline.specifiers_ofRecord,
    exact.coherent.importers]
  cases found : model.catalog.records[path]? with
  | none => simp [Graph.importedStems]
  | some record =>
      have own : record.path = path := exact.coherent.paths path record found
      simp [Graph.importedStems, Record.stems, own]

theorem importersOf_reached (path : String) :
    (reached workspace config origin actions enabled).graph.importersOf path =
      (reached workspace config origin actions enabled).catalog.importersOf path := by
  rw [Graph.importersOf, Catalog.importersOf, importers_reached, toList_erase]

end Reached

/-- The importers of a file are the other files with a record that leads to it, in order and each
once, whatever was done to a catalog. In a model, the graph gives the same importers of every path,
with or without a record. -/
theorem importers_exact :
    (∀ (records : Std.ExtTreeMap String Record) (staleness : Staleness)
        (actions : List Catalog.Action) (enabled : Bool),
      (Catalog.reached records staleness actions enabled).importers.Tidy ∧
      ∀ path,
        ((Catalog.reached records staleness actions enabled).importersOf path).Pairwise (· < ·) ∧
        ∀ other, other ∈ (Catalog.reached records staleness actions enabled).importersOf path ↔
          ¬ other = path ∧
          ∃ record,
            (Catalog.reached records staleness actions enabled).records[other]? = some record ∧
              record.LeadsTo other path) ∧
    ∀ (workspace : Workspace) (config : Config) (origin : Origin) (actions : List Action)
        (enabled : Bool) (path : String),
      (reached workspace config origin actions enabled).graph.importersOf path =
        (reached workspace config origin actions enabled).catalog.importersOf path := by
  constructor
  · intro records staleness actions enabled
    have exact := Catalog.Exact.reached records staleness actions enabled
    refine ⟨exact.tidy, fun path => ⟨Catalog.pairwise_importersOf _ path, fun other => ?_⟩⟩
    exact exact.mem_importersOf path other
  · exact importersOf_reached

end Model

end CodeIndex
