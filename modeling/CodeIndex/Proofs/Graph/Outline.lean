import CodeIndex.Proofs.Graph.Teardown

/-!
Contract: which files a graph has, with what they import and export.

Owns:
- `Graph.Outline`: what a graph keeps of a file beside its symbols;
- `Graph.outline_update`, `Graph.outline_remove`: what a change does to it.

Symbols of two files can share a key; outlines are kept by path and never meet. Nothing has to be
assumed of paths here.
-/

set_option autoImplicit false

namespace CodeIndex.Graph

/-- What a graph keeps of a file beside its symbols. -/
structure Outline where
  present : Bool
  imports : Option (List Import)
  exports : Option (List Export)

/-- The outline of a file with the given record, or without one. -/
def Outline.ofRecord (record : Option Record) : Outline :=
  { present := record.isSome
    imports := record.map (·.imports)
    exports := record.map (·.exports) }

def outline (graph : Graph) (path : String) : Outline :=
  { present := graph.containsFile path
    imports := graph.imports[path]?
    exports := graph.exports[path]? }

theorem outline_empty (limit : Nat) (path : String) :
    (empty limit).outline path = .ofRecord none := by
  simp [outline, Outline.ofRecord, empty, containsFile]

theorem outline_eq_of_bare {left right : Graph} (same : left.bare = right.bare) (path : String) :
    left.outline path = right.outline path := by
  have equal : left.bare.outline path = right.bare.outline path := by rw [same]
  exact equal

theorem outline_teardown (graph : Graph) (path other : String) :
    (graph.teardown path).outline other =
      if path = other then .ofRecord none else graph.outline other := by
  rw [teardown_eq]
  by_cases same : path = other
  · simp [outline, Outline.ofRecord, containsFile, same]
  · simp [outline, containsFile, Std.ExtTreeMap.getElem?_erase, Std.ExtTreeMap.contains_erase,
      same]

/-- The symbols of a file bring in no other file. -/
theorem mem_byFile_foldl_insertSymbol (path : String) (graph : Graph) (entries : List Declaration)
    (other : String) :
    other ∈ (entries.foldl (insertSymbol path) (graph.startFile path)).byFile ↔
      path = other ∨ other ∈ graph.byFile := by
  refine List.foldlRecOn (motive := fun built : Graph =>
    other ∈ built.byFile ↔ path = other ∨ other ∈ graph.byFile) entries _ ?_ ?_
  · simp [startFile, Std.ExtTreeMap.mem_insert]
  · intro built kept entry _
    rw [← kept, Std.ExtTreeMap.mem_iff_isSome_getElem?, getElem?_byFile_insertSymbol]
    split
    · next first => simpa using kept.mpr (Or.inl first.1)
    · rw [Std.ExtTreeMap.mem_iff_isSome_getElem?]

theorem outline_insert (graph : Graph) (record : Record) (other : String) :
    (graph.insert record).outline other =
      if record.path = other then .ofRecord (some record) else graph.outline other := by
  have files := mem_byFile_foldl_insertSymbol record.path graph (declarations record.symbols) other
  obtain ⟨_, _, _, _, _, folded, inserted⟩ := insert_eq graph record
  rw [folded, ← Std.ExtTreeMap.contains_iff_mem] at files
  rw [inserted]
  by_cases same : record.path = other
  · simpa [outline, Outline.ofRecord, containsFile, same] using files.mpr (Or.inl same)
  · simp only [same, false_or, ← Std.ExtTreeMap.contains_iff_mem] at files
    simpa [outline, containsFile, Std.ExtTreeMap.getElem?_insert, same] using
      Bool.eq_iff_iff.mpr files

/-- Edges apart, a file is updated by taking it out and putting it in. -/
theorem bare_update (graph : Graph) (record : Record) :
    (graph.update record).bare = ((graph.teardown record.path).insert record).bare := by
  rw [update, bare_relinkFiles, bare_linkFile]

theorem outline_update (graph : Graph) (record : Record) (other : String) :
    (graph.update record).outline other =
      if record.path = other then .ofRecord (some record) else graph.outline other := by
  rw [outline_eq_of_bare (bare_update graph record), outline_insert, outline_teardown]
  split <;> rfl

/-- A file that is not present has to be without imports and exports already, since nothing is done
then. -/
theorem outline_remove {graph : Graph} {path : String} {record : Option Record}
    (known : graph.outline path = .ofRecord record) (other : String) :
    (graph.remove path).outline other =
      if path = other then .ofRecord none else graph.outline other := by
  unfold remove
  split
  · rw [outline_eq_of_bare (bare_relinkFiles _ _), outline_teardown]
  · next absent =>
      cases record with
      | some kept => exact absurd (congrArg Outline.present known) absent
      | none =>
          by_cases same : path = other
          · rw [if_pos same, ← same, known]
          · rw [if_neg same]

end CodeIndex.Graph
