import CodeIndex.Proofs.Path

/-!
Contract: files of a tree, found by their place.

Owns:
- `FileTree.WellFormed`: everything lies in a directory, and nothing is both file and directory;
- `FileTree.WellFormed.walk_eq_file`: a path leads to the file that is kept at its place;
- `FileTree.WellFormed.write?`, `FileTree.WellFormed.remove?`: one file put in or taken out.
-/

set_option autoImplicit false

namespace CodeIndex.FileTree

open CodeIndex.Path

/-- A tree as a disk holds it: files are kept under clean steps, whatever there is lies in a
directory or at the top, and no file is a directory. -/
structure WellFormed (tree : FileTree) : Prop where
  names : ∀ place, place ∈ tree.files →
    ∃ steps, ¬ steps = [] ∧ (∀ step ∈ steps, Clean step) ∧ place = key steps
  above : ∀ name rest, (∀ step ∈ name :: rest, Clean step) →
    key (name :: rest) ∈ tree.files ∨ key (name :: rest) ∈ tree.directories →
    rest = [] ∨ key rest ∈ tree.directories
  apart : ∀ place, place ∈ tree.files → ¬ place ∈ tree.directories

theorem wellFormed_empty : FileTree.empty.WellFormed := by
  constructor <;> simp [empty]

/-! ## Ways to files -/

theorem walk_skip (tree : FileTree) (above rest : List String) :
    tree.walk above ("" :: rest) = tree.walk above rest := by
  simp [walk]

theorem walk_clean (tree : FileTree) (above rest : List String) {step : String}
    (clean : Clean step) :
    tree.walk above (step :: rest) =
      match tree.files[key (step :: above)]? with
      | some file => if rest.isEmpty then .file (step :: above) file else .blocked
      | none =>
          if tree.directories.contains (key (step :: above)) then
            tree.walk (step :: above) rest
          else .missing := by
  have isName : ¬ (step = "" ∨ step = ".") := not_or.mpr ⟨clean.nonempty, clean.notHere⟩
  rw [walk, if_neg isName]
  exact if_neg clean.notUp

namespace WellFormed

variable {tree : FileTree}

/-- What lies above a file or a directory is a directory. -/
theorem mem_directories (wellFormed : tree.WellFormed) {more above : List String}
    (proper : ¬ more = []) (inner : ¬ above = [])
    (clean : ∀ step ∈ more ++ above, Clean step)
    (present : key (more ++ above) ∈ tree.files ∨ key (more ++ above) ∈ tree.directories) :
    key above ∈ tree.directories := by
  induction more with
  | nil => exact absurd rfl proper
  | cons name rest inductionHypothesis =>
      have directory : key (rest ++ above) ∈ tree.directories := by
        refine (wellFormed.above name (rest ++ above) clean present).resolve_left ?_
        simp [inner]
      cases rest with
      | nil => exact directory
      | cons next more =>
          apply inductionHypothesis (by simp)
          · exact fun step member => clean step (List.mem_cons_of_mem name member)
          · exact Or.inr directory

/-- Clean steps lead to the file at their place. -/
theorem walk_eq_file (wellFormed : tree.WellFormed) (steps above : List String)
    (nonempty : ¬ steps = []) (clean : ∀ step ∈ steps.reverse ++ above, Clean step)
    (found : List String) (file : File) :
    tree.walk above steps = .file found file ↔
      found = steps.reverse ++ above ∧ tree.files[key found]? = some file := by
  induction steps generalizing above with
  | nil => exact absurd rfl nonempty
  | cons step rest inductionHypothesis =>
      have reversed : (step :: rest).reverse ++ above = rest.reverse ++ (step :: above) := by
        simp
      rw [reversed] at clean ⊢
      have cleanStep : Clean step := clean step (by simp)
      rw [walk_clean tree above rest cleanStep]
      cases rest with
      | nil =>
          cases kept : tree.files[key (step :: above)]? with
          | some other =>
              simp only [List.isEmpty_nil, if_true, Place.file.injEq, List.reverse_nil,
                List.nil_append]
              constructor
              · rintro ⟨rfl, rfl⟩
                exact ⟨rfl, kept⟩
              · rintro ⟨rfl, same⟩
                exact ⟨rfl, Option.some.inj (kept.symm.trans same)⟩
          | none =>
              simp only [List.reverse_nil, List.nil_append]
              constructor
              · intro reached
                split at reached
                · exact absurd reached (by simp [walk])
                · exact absurd reached (by simp)
              · rintro ⟨rfl, same⟩
                rw [kept] at same
                exact absurd same (by simp)
      | cons next more =>
          -- A file further down makes a directory of this step.
          have directory : ∀ place, place = (next :: more).reverse ++ (step :: above) →
              tree.files[key place]? = some file → key (step :: above) ∈ tree.directories := by
            rintro _ rfl same
            apply wellFormed.mem_directories (by simp) (by simp) clean
            exact Or.inl (Std.ExtTreeMap.mem_iff_isSome_getElem?.mpr (by rw [same]; rfl))
          cases kept : tree.files[key (step :: above)]? with
          | some other =>
              have isFile : key (step :: above) ∈ tree.files :=
                Std.ExtTreeMap.mem_iff_isSome_getElem?.mpr (by simp [kept])
              simp only [List.isEmpty_cons, Bool.false_eq_true, if_false, reduceCtorEq, false_iff]
              rintro ⟨place, same⟩
              exact wellFormed.apart _ isFile (directory found place same)
          | none =>
              by_cases inside : key (step :: above) ∈ tree.directories
              · simp only [Std.ExtTreeMap.contains_iff_mem.mpr inside, if_true]
                exact inductionHypothesis (step :: above) (by simp) clean
              · have outside : ¬ tree.directories.contains (key (step :: above)) = true := by
                  rwa [Std.ExtTreeMap.contains_iff_mem]
                simp only [outside, if_false, reduceCtorEq, false_iff]
                rintro ⟨place, same⟩
                exact inside (directory found place same)

end WellFormed

/-! ## Directories on the way -/

/-- The directories that are made on the way are those of the steps up to each one. -/
theorem makeSteps?_spec {now : Timestamp} {tree grown : FileTree} {made steps : List String}
    (grew : tree.makeSteps? now made steps = some grown) :
    grown.files = tree.files ∧
      (∀ place, place ∈ grown.directories ↔ place ∈ tree.directories ∨
        ∃ front back, ¬ front = [] ∧ steps = front ++ back ∧ place = key (front.reverse ++ made)) ∧
      ∀ front back, ¬ front = [] → steps = front ++ back →
        ¬ key (front.reverse ++ made) ∈ tree.files := by
  induction steps generalizing tree made with
  | nil =>
      rw [makeSteps?, Option.some.injEq] at grew
      subst grew
      refine ⟨rfl, fun place => ?_, ?_⟩
      · constructor
        · exact Or.inl
        · rintro (known | ⟨front, back, nonempty, split, _⟩)
          · exact known
          · exact absurd (List.append_eq_nil_iff.mp split.symm).1 nonempty
      · intro front back nonempty split
        exact absurd (List.append_eq_nil_iff.mp split.symm).1 nonempty
  | cons step rest inductionHypothesis =>
      rw [makeSteps?] at grew
      split at grew
      · exact absurd grew (by simp)
      · next noFile =>
          rw [Std.ExtTreeMap.contains_iff_mem] at noFile
          obtain ⟨files, directories, noFiles⟩ := inductionHypothesis grew
          refine ⟨files, fun place => ?_, ?_⟩
          · rw [directories, Std.ExtTreeMap.mem_insertIfNew, Std.LawfulEqCmp.compare_eq_iff_eq]
            constructor
            · rintro ((rfl | known) | ⟨front, back, _, split, rfl⟩)
              · exact Or.inr ⟨[step], rest, by simp, rfl, rfl⟩
              · exact Or.inl known
              · exact Or.inr ⟨step :: front, back, by simp, by simp [split], by simp⟩
            · rintro (known | ⟨front, back, nonempty, split, rfl⟩)
              · exact Or.inl (Or.inr known)
              · cases front with
                | nil => exact absurd rfl nonempty
                | cons first more =>
                    obtain ⟨rfl, splitRest⟩ := List.cons.inj split
                    cases more with
                    | nil => exact Or.inl (Or.inl (by simp))
                    | cons second others =>
                        exact Or.inr ⟨second :: others, back, by simp, splitRest, by simp⟩
          · intro front back nonempty split
            cases front with
            | nil => exact absurd rfl nonempty
            | cons first more =>
                obtain ⟨rfl, splitRest⟩ := List.cons.inj split
                cases more with
                | nil => simpa using noFile
                | cons second others =>
                    simpa using noFiles (second :: others) back (by simp) splitRest

/-! ## Changes -/

namespace WellFormed

variable {tree after : FileTree}

/-- A file put in after the directories above it. -/
theorem insert_file (wellFormed : tree.WellFormed) {name : String} {above : List String}
    (clean : ∀ step ∈ name :: above, Clean step)
    (noDirectory : ¬ key (name :: above) ∈ tree.directories)
    {directories : Std.ExtTreeMap String Timestamp}
    (made : ∀ place, place ∈ directories ↔ place ∈ tree.directories ∨
      ∃ down up, ¬ up = [] ∧ above = down ++ up ∧ place = key up)
    (free : ∀ down up, ¬ up = [] → above = down ++ up → ¬ key up ∈ tree.files) (file : File) :
    WellFormed
      { files := tree.files.insert (key (name :: above)) file, directories := directories } := by
  have cleanUp : ∀ down up, above = down ++ up → ∀ step ∈ up, Clean step := by
    rintro down up rfl step member
    exact clean step (List.mem_cons_of_mem name (List.mem_append_right down member))
  have kept : ∀ place, place ∈ tree.directories → place ∈ directories :=
    fun place known => (made place).mpr (Or.inl known)
  have inFiles : ∀ place, place ∈ tree.files.insert (key (name :: above)) file ↔
      key (name :: above) = place ∨ place ∈ tree.files := by
    intro place
    rw [Std.ExtTreeMap.mem_insert, Std.LawfulEqCmp.compare_eq_iff_eq]
  constructor
  case names =>
    intro place member
    rcases (inFiles place).mp member with rfl | old
    · exact ⟨name :: above, by simp, clean, rfl⟩
    · exact wellFormed.names place old
  case above =>
    intro other rest otherClean present
    rcases present with member | directory
    · rcases (inFiles _).mp member with same | old
      · obtain ⟨_, rfl⟩ := List.cons.inj (key_inj clean otherClean same)
        by_cases top : above = []
        · exact Or.inl top
        · exact Or.inr ((made _).mpr (Or.inr ⟨[], above, top, rfl, rfl⟩))
      · exact (wellFormed.above other rest otherClean (Or.inl old)).imp_right (kept _)
    · rcases (made _).mp directory with old | ⟨down, up, _, split, same⟩
      · exact (wellFormed.above other rest otherClean (Or.inr old)).imp_right (kept _)
      · have isUp : other :: rest = up := key_inj otherClean (cleanUp down up split) same
        by_cases top : rest = []
        · exact Or.inl top
        · refine Or.inr ((made _).mpr (Or.inr ⟨down ++ [other], rest, top, ?_, rfl⟩))
          simp [split, ← isUp]
  case apart =>
    intro place member directory
    rcases (inFiles place).mp member with rfl | old
    · rcases (made _).mp directory with known | ⟨down, up, _, split, same⟩
      · exact noDirectory known
      · have longer : name :: above = up := key_inj clean (cleanUp down up split) same
        have lengths := congrArg List.length split
        rw [List.length_append, ← longer, List.length_cons] at lengths
        omega
    · rcases (made _).mp directory with known | ⟨down, up, nonempty, split, rfl⟩
      · exact wellFormed.apart place old known
      · exact free down up nonempty split old

/-- A file is put in at its place, and the tree stays well-formed. -/
theorem write? (wellFormed : tree.WellFormed) {path : String} {file : File} {now : Timestamp}
    (written : tree.write? path file now = some after) :
    after.WellFormed ∧ after.files = tree.files.insert (key (stepsOf path)) file ∧
      ∀ place, place ∈ tree.directories → place ∈ after.directories := by
  have clean := stepsOf_clean path
  unfold FileTree.write? at written
  cases steps : stepsOf path with
  | nil => simp [steps] at written
  | cons name above =>
      rw [steps] at clean
      simp only [steps] at written
      split at written
      · exact absurd written (by simp)
      · next noDirectory =>
          rw [Std.ExtTreeMap.contains_iff_mem] at noDirectory
          cases grew : tree.makeSteps? now [] above.reverse with
          | none => simp [grew] at written
          | some grown =>
              simp only [grew, Option.some.injEq] at written
              obtain ⟨files, directories, noFiles⟩ := makeSteps?_spec grew
              subst written
              rw [files]
              refine ⟨wellFormed.insert_file clean noDirectory ?_ ?_ file, rfl,
                fun place known => (directories place).mpr (Or.inl known)⟩
              · intro place
                rw [directories]
                refine or_congr_right ⟨?_, ?_⟩
                · rintro ⟨front, back, nonempty, split, rfl⟩
                  refine ⟨back.reverse, front.reverse, by simpa using nonempty, ?_, by simp⟩
                  rw [← List.reverse_append, ← split, List.reverse_reverse]
                · rintro ⟨down, up, nonempty, rfl, rfl⟩
                  exact ⟨up.reverse, down.reverse, by simpa using nonempty, by simp, by simp⟩
              · rintro down up nonempty rfl
                simpa using noFiles up.reverse down.reverse (by simpa using nonempty) (by simp)

/-- A file is taken out of its place, and the tree stays well-formed. -/
theorem remove? (wellFormed : tree.WellFormed) {path : String} {steps : List String} {file : File}
    (found : tree.find path = .file steps file) (removed : tree.remove? path = some after) :
    after.WellFormed ∧ after.files = tree.files.erase (key steps) ∧
      after.directories = tree.directories := by
  simp only [FileTree.remove?, found, Option.some.injEq] at removed
  subst removed
  have kept : ∀ place, place ∈ tree.files.erase (key steps) → place ∈ tree.files :=
    fun place member => (Std.ExtTreeMap.mem_erase.mp member).2
  refine ⟨⟨?_, ?_, ?_⟩, rfl, rfl⟩
  · exact fun place member => wellFormed.names place (kept place member)
  · intro name rest clean present
    exact wellFormed.above name rest clean (present.imp_left (kept _))
  · exact fun place member => wellFormed.apart place (kept place member)

end WellFormed

end CodeIndex.FileTree
