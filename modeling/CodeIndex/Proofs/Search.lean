import CodeIndex.Search.Index

/-!
Contract: what a search index holds of each file.

Owns:
- `Search.Index.chunksAt`: the chunks of a file, in order;
- `Search.Index.chunksAt_remove`, `Search.Index.chunksAt_update`: what a change does to them;
- `Search.Index.Holds`: an index holds the chunks of given records, and no others.

Does not own: how chunks are found by their terms.
-/

set_option autoImplicit false

namespace CodeIndex.Search

/-! ## Chunks of a record -/

theorem path_of_mem_chunksOf {record : Record} {chunk : Chunk} (member : chunk ∈ chunksOf record) :
    chunk.path = record.path := by
  have ofSymbols : ∀ inner ∈ record.symbols.flatMap (chunksOfSymbol record.path),
      inner.path = record.path := by
    intro inner inside
    obtain ⟨symbol, _, ofSymbol⟩ := List.mem_flatMap.mp inside
    rcases List.mem_cons.mp ofSymbol with rfl | ofMember
    · rfl
    · obtain ⟨method, _, rfl⟩ := List.mem_map.mp ofMember
      rfl
  unfold chunksOf at member
  split at member
  · rw [List.mem_singleton.mp member]
    rfl
  · exact ofSymbols chunk member

theorem chunksOf_ne_nil (record : Record) : ¬ chunksOf record = [] := by
  unfold chunksOf
  split
  · simp
  · next some => exact some

theorem chunksOf_with_lastIndexed (record : Record) (time : Timestamp) :
    chunksOf { record with lastIndexed := time } = chunksOf record := rfl

theorem filter_chunksOf (record : Record) (path : String) :
    (chunksOf record).filter (fun chunk => chunk.path == path) =
      if record.path = path then chunksOf record else [] := by
  split
  · next same =>
      apply List.filter_eq_self.mpr
      intro chunk member
      simp [path_of_mem_chunksOf member, same]
  · next different =>
      apply List.filter_eq_nil_iff.mpr
      intro chunk member
      simp [path_of_mem_chunksOf member, different]

namespace Index

/-! ## Chunks of a file -/

/-- The chunks of a file, in order. -/
def chunksAt (index : Index) (path : String) : List Chunk :=
  index.chunks.toList.filter fun chunk => chunk.path == path

theorem containsFile_iff (index : Index) (path : String) :
    index.containsFile path = true ↔ ¬ index.chunksAt path = [] := by
  rw [containsFile, Array.any_eq_true', chunksAt, List.filter_eq_nil_iff]
  simp

theorem chunks_remove (index : Index) (path : String) :
    (index.remove path).chunks.toList =
      index.chunks.toList.filter fun chunk => chunk.path != path := by
  -- A file without chunks is not looked for; there is nothing to filter out then either.
  unfold remove
  split
  · exact Array.toList_filter
  · next absent =>
      symm
      apply List.filter_eq_self.mpr
      intro chunk member
      simp only [containsFile, Array.any_eq_true', not_exists, not_and] at absent
      simpa using absent chunk (Array.mem_toList_iff.mp member)

theorem chunksAt_remove (index : Index) (path other : String) :
    (index.remove path).chunksAt other = if path = other then [] else index.chunksAt other := by
  rw [chunksAt, chunks_remove, List.filter_filter]
  split
  · next same =>
      apply List.filter_eq_nil_iff.mpr
      intro chunk _
      simp [same]
  · next different =>
      apply List.filter_congr
      intro chunk _
      by_cases here : chunk.path = other
      · have away : ¬ other = path := fun same => different same.symm
        simp [here, away]
      · simp [here]

theorem fingerprints_remove (index : Index) (path : String) :
    (index.remove path).fingerprints = index.fingerprints.erase path := by
  unfold remove
  split <;> rfl

theorem chunks_foldl_addChunk (chunks : List Chunk) (index : Index) :
    (chunks.foldl addChunk index).chunks.toList = index.chunks.toList ++ chunks := by
  induction chunks generalizing index with
  | nil => simp
  | cons first rest inductionHypothesis =>
      rw [List.foldl_cons, inductionHypothesis]
      simp [addChunk]

theorem fingerprints_foldl_addChunk (chunks : List Chunk) (index : Index) :
    (chunks.foldl addChunk index).fingerprints = index.fingerprints :=
  List.foldlRecOn (motive := fun grown : Index => grown.fingerprints = index.fingerprints)
    chunks _ rfl fun _ kept _ _ => kept

/-- An update is skipped if the fingerprint is known and the file has chunks. -/
theorem update_of_known {index : Index} {record : Record}
    (known : index.fingerprints[record.path]? = some record.fingerprint ∧
      index.containsFile record.path = true) : (index.update record).2 = index := by
  unfold update
  rw [if_pos (by simpa only [Bool.and_eq_true, beq_iff_eq] using known)]

section Update

variable {index : Index} {record : Record}
  (stale : ¬ (index.fingerprints[record.path]? = some record.fingerprint ∧
    index.containsFile record.path = true))

include stale

theorem update_eq :
    (index.update record).2 =
      { (chunksOf record).foldl addChunk (index.remove record.path) with
        fingerprints := (index.fingerprints.erase record.path).insert record.path
          record.fingerprint
        weights := none } := by
  have proceed : ¬ (index.fingerprints[record.path]? == some record.fingerprint &&
      index.containsFile record.path) = true := by
    simpa only [Bool.and_eq_true, beq_iff_eq] using stale
  unfold update
  rw [if_neg proceed]
  simp only [fingerprints_foldl_addChunk, fingerprints_remove]

theorem chunksAt_update (path : String) :
    (index.update record).2.chunksAt path =
      if record.path = path then chunksOf record else index.chunksAt path := by
  have removed := chunksAt_remove index record.path path
  rw [update_eq stale]
  unfold chunksAt at removed ⊢
  rw [chunks_foldl_addChunk, List.filter_append, removed, filter_chunksOf]
  split <;> simp

theorem fingerprints_update (path : String) :
    (index.update record).2.fingerprints[path]? =
      if record.path = path then some record.fingerprint else index.fingerprints[path]? := by
  rw [update_eq stale, Std.ExtTreeMap.getElem?_insert, Std.ExtTreeMap.getElem?_erase]
  simp only [Std.LawfulEqCmp.compare_eq_iff_eq]
  split <;> rfl

end Update

/-! ## Indexes of records -/

/-- An index holds the chunks of given records, and knows the fingerprints of these. -/
structure Holds (index : Index) (records : Std.ExtTreeMap String Record) : Prop where
  chunks : ∀ path : String, index.chunksAt path = records[path]?.toList.flatMap chunksOf
  fingerprints : ∀ path : String, index.fingerprints[path]? = records[path]?.map Record.fingerprint

theorem holds_empty (stopWordWeight : Float) : (empty stopWordWeight).Holds ∅ where
  chunks := by simp [empty, chunksAt]
  fingerprints := by simp [empty]

namespace Holds

variable {index : Index} {before after : Std.ExtTreeMap String Record} {path : String}
  (holds : index.Holds before)
  (others : ∀ other, ¬ path = other → after[other]? = before[other]?)

include holds others

theorem remove (self : after[path]? = none) : (index.remove path).Holds after where
  chunks := by
    intro other
    rw [chunksAt_remove]
    by_cases same : path = other
    · subst same
      simp [self]
    · rw [if_neg same, others other same, holds.chunks]
  fingerprints := by
    intro other
    rw [fingerprints_remove, Std.ExtTreeMap.getElem?_erase]
    simp only [Std.LawfulEqCmp.compare_eq_iff_eq]
    by_cases same : path = other
    · subst same
      simp [self]
    · rw [if_neg same, others other same, holds.fingerprints]

theorem update {record : Record} (isPath : record.path = path)
    (self : after[path]? = some record)
    (differs : ∀ old, before[path]? = some old → ¬ old.fingerprint = record.fingerprint) :
    (index.update record).2.Holds after := by
  have stale : ¬ (index.fingerprints[record.path]? = some record.fingerprint ∧
      index.containsFile record.path = true) := by
    rw [isPath, holds.fingerprints, Option.map_eq_some_iff]
    rintro ⟨⟨old, found, same⟩, _⟩
    exact differs old found same
  constructor
  case chunks =>
    intro other
    rw [chunksAt_update stale, isPath]
    by_cases same : path = other
    · subst same
      simp [self]
    · rw [if_neg same, others other same, holds.chunks]
  case fingerprints =>
    intro other
    rw [fingerprints_update stale, isPath]
    by_cases same : path = other
    · subst same
      simp [self]
    · rw [if_neg same, others other same, holds.fingerprints]

/-- The time of a record does not show in the index. -/
theorem retime {old : Record} {time : Timestamp} (found : before[path]? = some old)
    (self : after[path]? = some { old with lastIndexed := time }) : index.Holds after where
  chunks := by
    intro other
    rw [holds.chunks]
    by_cases same : path = other
    · subst same
      simp [self, found, chunksOf_with_lastIndexed]
    · rw [others other same]
  fingerprints := by
    intro other
    rw [holds.fingerprints]
    by_cases same : path = other
    · subst same
      simp [self, found]
    · rw [others other same]

end Holds

end Index

end CodeIndex.Search
