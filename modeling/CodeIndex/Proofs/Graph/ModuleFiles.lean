import CodeIndex.Proofs.Graph.History
import CodeIndex.Proofs.Graph.Outline
import CodeIndex.Proofs.Specifier

/-!
Contract: which file an import leads to when several have its stem.

Owns:
- `Graph.Stemmed`: the files of a stem are the indexed files that it leads to;
- `Graph.moduleFiles`: these files in the order in which they are tried;
- `Graph.shared_stem_resolved`: the choice among them.

The files of a stem are kept in the order of their texts. A file beside the stem is tried before a
file in its directory, but extensions are tried by the alphabet, and not in the order in which
`sourceExtensions` lists them.
-/

set_option autoImplicit false

namespace CodeIndex.Graph

/-! ## Files by stem -/

/-- The files of a stem are the indexed files that it leads to. -/
def Stemmed (graph : Graph) : Prop :=
  ∀ stem path, path ∈ graph.filesByStem.values stem ↔
    (graph.outline path).present = true ∧ stem ∈ Specifier.fileStems path

namespace Stemmed

variable {graph : Graph}

theorem empty (limit : Nat) : (Graph.empty limit).Stemmed := by
  intro stem path
  rw [outline_empty]
  simp [Graph.empty, Outline.ofRecord]

theorem of_bare {left right : Graph} (same : left.bare = right.bare) (stemmed : right.Stemmed) :
    left.Stemmed := by
  intro stem path
  have files : left.bare.filesByStem = right.bare.filesByStem := by rw [same]
  rw [outline_eq_of_bare same, ← stemmed stem path]
  exact iff_of_eq (congrArg (fun known : Multimap => path ∈ known.values stem) files)

theorem teardown (stemmed : graph.Stemmed) (path : String) : (graph.teardown path).Stemmed := by
  intro stem other
  rw [mem_filesByStem_teardown, outline_teardown, stemmed stem other]
  by_cases same : path = other
  · subst same
    simp only [Outline.ofRecord, if_true, and_true]
    grind
  · simp [same]

theorem insert (stemmed : graph.Stemmed) (record : Record) : (graph.insert record).Stemmed := by
  intro stem other
  have pairs : other ∈ (graph.insert record).filesByStem.values stem ↔
      (stem ∈ Specifier.fileStems record.path ∧ record.path = other) ∨
        other ∈ graph.filesByStem.values stem := by
    obtain ⟨_, _, _, _, _, _, inserted⟩ := insert_eq graph record
    rw [inserted]
    exact Multimap.mem_values_foldl_add _ _ _ _ _
  rw [pairs, outline_insert, stemmed stem other]
  by_cases same : record.path = other
  · subst same
    simp [Outline.ofRecord]
  · simp [same]

theorem update (stemmed : graph.Stemmed) (record : Record) : (graph.update record).Stemmed := by
  exact of_bare (bare_update graph record) ((stemmed.teardown record.path).insert record)

theorem remove (stemmed : graph.Stemmed) (path : String) : (graph.remove path).Stemmed := by
  unfold Graph.remove
  split
  · exact of_bare (bare_relinkFiles _ _) (stemmed.teardown path)
  · exact stemmed

theorem run (limit : Nat) (changes : List Change) : (Graph.run limit changes).Stemmed := by
  refine List.foldlRecOn changes Change.applyTo (empty limit) ?_
  intro graph stemmed change _
  cases change with
  | update record => exact stemmed.update record
  | remove path => exact stemmed.remove path

end Stemmed

/-! ## The order of trial -/

/-- The indexed files that a stem leads to, in the order in which they are tried. -/
def moduleFiles (graph : Graph) (stem : String) : List String :=
  (Specifier.modulePaths stem).filter fun path =>
    graph.containsFile path && (Specifier.fileStems path).contains stem

theorem mem_moduleFiles (graph : Graph) (stem path : String) :
    path ∈ graph.moduleFiles stem ↔
      graph.containsFile path = true ∧ stem ∈ Specifier.fileStems path := by
  rw [moduleFiles, List.mem_filter, Bool.and_eq_true, List.contains_iff_mem]
  constructor
  · intro found
    exact found.2
  · intro found
    exact ⟨Specifier.mem_modulePaths_of_mem_fileStems found.2, found⟩

theorem pairwise_moduleFiles (graph : Graph) (stem : String) :
    (graph.moduleFiles stem).Pairwise (· < ·) :=
  (Specifier.pairwise_modulePaths stem).filter _

/-- The first file is the smallest one, so it is beside the stem if one is there, and no file of its
kind has an earlier extension. -/
theorem exists_of_head?_moduleFiles {graph : Graph} {stem file : String}
    (first : (graph.moduleFiles stem).head? = some file) :
    ∃ base ∈ [stem, stem ++ "/index"], ∃ ending ∈ Specifier.endings, file = base ++ ending ∧
      (∀ other ∈ Specifier.endings, stem ++ other ∈ graph.moduleFiles stem → base = stem) ∧
      ∀ other ∈ Specifier.endings, base ++ other ∈ graph.moduleFiles stem → ending ≤ other := by
  obtain ⟨rest, listed⟩ := List.head?_eq_some_iff.mp first
  have smallest : ∀ other ∈ graph.moduleFiles stem, ¬ other < file := by
    intro other member
    have ordered := graph.pairwise_moduleFiles stem
    rw [listed] at member ordered
    obtain rfl | later := List.mem_cons.mp member
    · exact String.lt_irrefl other
    · exact String.lt_asymm (List.rel_of_pairwise_cons ordered later)
  have earliest {base ending other : String} (isFile : base ++ ending = file)
      (member : base ++ other ∈ graph.moduleFiles stem) : ending ≤ other := by
    apply String.not_lt.mp
    intro before
    exact smallest _ member (isFile ▸ Specifier.append_lt_append base before)
  have possible : file ∈ Specifier.modulePaths stem :=
    (List.mem_filter.mp (List.mem_of_head? first)).1
  rw [Specifier.modulePaths, List.mem_append, List.mem_map, List.mem_map] at possible
  obtain ⟨ending, known, rfl⟩ | ⟨ending, known, rfl⟩ := possible
  · exact ⟨stem, by simp, ending, known, rfl, fun _ _ _ => rfl, fun _ _ => earliest rfl⟩
  · refine ⟨stem ++ "/index", by simp, ending, known, rfl, ?_, fun _ _ => earliest rfl⟩
    intro other otherKnown member
    exact absurd (Specifier.beside_lt_inside stem otherKnown known) (smallest _ member)

/-- Both lists are in the order of texts and have the same members. -/
theorem Stemmed.toList_filesByStem {graph : Graph} (stemmed : graph.Stemmed) (stem : String) :
    (graph.filesByStem.values stem).toList = graph.moduleFiles stem := by
  have keptOrder : (graph.filesByStem.values stem).toList.Pairwise (· < ·) :=
    (Std.ExtTreeSet.ordered_toList (t := graph.filesByStem.values stem)).imp fun before =>
      compareOfLessAndEq_eq_lt.mp before
  have triedOrder := graph.pairwise_moduleFiles stem
  have members (path : String) :
      path ∈ (graph.filesByStem.values stem).toList ↔ path ∈ graph.moduleFiles stem := by
    rw [Std.ExtTreeSet.mem_toList, stemmed stem path, mem_moduleFiles]
    rfl
  have distinct {paths : List String} (ordered : paths.Pairwise (· < ·)) : paths.Nodup :=
    ordered.imp String.ne_of_lt
  apply ((List.perm_ext_iff_of_nodup (distinct keptOrder) (distinct triedOrder)).mpr
    members).eq_of_pairwise _ keptOrder triedOrder
  intro first second _ _ before after
  exact absurd after (String.lt_asymm before)

/-- What an import leads a name to. Only a relative specifier has a stem. -/
theorem Stemmed.resolveImport?_eq {graph : Graph} (stemmed : graph.Stemmed)
    (importer name : String) (statement : Import) :
    graph.resolveImport? importer name statement =
      (boundName? statement name).bind fun exported =>
        (Specifier.stem? importer statement.source).bind fun stem =>
          (graph.moduleFiles stem).findSome? fun file => graph.topLevel? file exported := by
  unfold resolveImport?
  by_cases relative : Specifier.isRelative statement.source = true
  · rw [if_pos relative]
    cases boundName? statement name with
    | none => rfl
    | some exported =>
        cases Specifier.stem? importer statement.source with
        | none => rfl
        | some stem => simp only [stemmed.toList_filesByStem, Option.bind_some]
  · have nowhere : Specifier.stem? importer statement.source = none := by
      simp [Specifier.stem?, relative]
    simp [relative, nowhere]

/-- Whatever was put into a graph and taken out, an import leads to the first of the indexed files
that its stem leads to, and names are looked for in the same files in the same order. The first file
is one beside the stem if there is any. Of the files beside the stem, or else of those in its
directory, it is the one whose extension comes first in the alphabet. -/
theorem shared_stem_resolved (limit : Nat) (changes : List Change) (importer : String) :
    (∀ specifier,
      (run limit changes).resolveImportedFile? importer specifier =
        (Specifier.stem? importer specifier).bind fun stem =>
          ((run limit changes).moduleFiles stem).head?) ∧
      (∀ name,
        (run limit changes).resolveThroughImports importer name =
          (((run limit changes).importsOf importer).findSome? fun statement =>
            (boundName? statement name).bind fun exported =>
              (Specifier.stem? importer statement.source).bind fun stem =>
                ((run limit changes).moduleFiles stem).findSome? fun file =>
                  (run limit changes).topLevel? file exported).toList) ∧
      ∀ specifier file, (run limit changes).resolveImportedFile? importer specifier = some file →
        ∃ stem, Specifier.stem? importer specifier = some stem ∧
          ∃ base ∈ [stem, stem ++ "/index"], ∃ ending ∈ Specifier.endings, file = base ++ ending ∧
            (∀ other ∈ Specifier.endings,
              stem ++ other ∈ (run limit changes).moduleFiles stem → base = stem) ∧
            ∀ other ∈ Specifier.endings,
              base ++ other ∈ (run limit changes).moduleFiles stem → ending ≤ other := by
  have stemmed := Stemmed.run limit changes
  have resolved (specifier : String) :
      (run limit changes).resolveImportedFile? importer specifier =
        (Specifier.stem? importer specifier).bind fun stem =>
          ((run limit changes).moduleFiles stem).head? := by
    simp only [resolveImportedFile?, stemmed.toList_filesByStem]
  refine ⟨resolved, ?_, ?_⟩
  · intro name
    rw [resolveThroughImports, importsOf, funext (stemmed.resolveImport?_eq importer name)]
  · intro specifier file found
    rw [resolved] at found
    obtain ⟨stem, leads, first⟩ := Option.bind_eq_some_iff.mp found
    exact ⟨stem, leads, exists_of_head?_moduleFiles first⟩

/-- A file with one function. -/
def functionAt (path : String) : Record :=
  { path := path
    fingerprint := "1"
    lastIndexed := 0
    symbols := [{ name := "f", kind := .function, line := 1, endLine := 1 }] }

/-- An index, taken out and put in again, and two files beside its directory. -/
def sharedStem : List Change :=
  [.update (functionAt "b/index.js"), .update (functionAt "b.tsx"), .remove "b/index.js",
    .update (functionAt "b.ts"), .update (functionAt "b/index.js")]

theorem sharedStem_resolved :
    (run 3 sharedStem).moduleFiles "b" = ["b.ts", "b.tsx", "b/index.js"] ∧
      (run 3 sharedStem).resolveImportedFile? "a.ts" "./b" = some "b.ts" := by
  have files : Specifier.stem? "a.ts" "./b" = some "b" ∧
      (run 3 sharedStem).moduleFiles "b" = ["b.ts", "b.tsx", "b/index.js"] := by
    decide +kernel
  refine ⟨files.2, ?_⟩
  rw [(shared_stem_resolved 3 sharedStem "a.ts").1 "./b", files.1, Option.bind_some, files.2]
  rfl

/-- A source file and what it was compiled to. -/
def compiledTwin : List Change :=
  [.update (functionAt "b.ts"), .update (functionAt "b.js")]

/-- The compiled file is taken, though its extension is listed behind that of the source file. -/
theorem compiled_twin_is_taken :
    (run 3 compiledTwin).containsFile "b.ts" = true ∧
      (run 3 compiledTwin).containsFile "b.js" = true ∧
      Specifier.fileStems "b.ts" = ["b"] ∧ Specifier.fileStems "b.js" = ["b"] ∧
      sourceExtensions.idxOf "ts" < sourceExtensions.idxOf "js" ∧
      (run 3 compiledTwin).resolveImportedFile? "a.ts" "./b" = some "b.js" := by
  decide +kernel

end CodeIndex.Graph
