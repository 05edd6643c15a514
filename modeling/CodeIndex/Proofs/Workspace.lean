import CodeIndex.Proofs.FileTree
import CodeIndex.Workspace

/-!
Contract: the files of a workspace, found by their paths.

Owns:
- `Workspace.Rooted`: the directory of a workspace is given without detours;
- `Workspace.fileAt?`: the file at a path;
- `Workspace.place`, `Workspace.fileAt?_eq`: where it is kept in the tree;
- `Workspace.filesIn`: all files with their paths, and `Workspace.mem_listFiles`: which of them are
  listed;
- `Workspace.fileAt?_write?`, `Workspace.fileAt?_remove?`: what a change does to the file at a path.

A path is in normal form if it is what `Workspace.relative?` makes of it.
-/

set_option autoImplicit false

namespace CodeIndex

open CodeIndex.Path

namespace FileTree

/-- A way that ends in a directory has clean steps. -/
theorem walk_directory_clean {tree : FileTree} {segments above steps : List String}
    (free : ∀ segment ∈ segments, ¬ '/' ∈ segment.toList) (clean : ∀ step ∈ above, Clean step)
    (reached : tree.walk above segments = .directory steps) : ∀ step ∈ steps, Clean step := by
  induction segments generalizing above with
  | nil =>
      rw [walk, Place.directory.injEq] at reached
      exact reached ▸ clean
  | cons segment rest inductionHypothesis =>
      have freeRest : ∀ segment ∈ rest, ¬ '/' ∈ segment.toList :=
        fun other member => free other (List.mem_cons_of_mem segment member)
      rw [walk] at reached
      split at reached
      · exact inductionHypothesis freeRest clean reached
      · next isName =>
          obtain ⟨nonempty, notHere⟩ := not_or.mp isName
          split at reached
          · exact inductionHypothesis freeRest
              (fun step member => clean step (List.mem_of_mem_drop member)) reached
          · next notUp =>
              have cleanNext : ∀ step ∈ segment :: above, Clean step := by
                intro step member
                rcases List.mem_cons.mp member with rfl | earlier
                · exact ⟨nonempty, notHere, notUp, free step (by simp)⟩
                · exact clean step earlier
              dsimp only at reached
              split at reached
              · split at reached <;> exact absurd reached (by simp)
              · split at reached
                · exact inductionHypothesis freeRest cleanNext reached
                · exact absurd reached (by simp)

/-- More directories in a tree leave a way to a directory as it is. -/
theorem walk_directory_of_grown {tree grown : FileTree} (wellFormed : grown.WellFormed)
    (kept : ∀ place, place ∈ tree.directories → place ∈ grown.directories)
    {segments above steps : List String} (reached : tree.walk above segments = .directory steps) :
    grown.walk above segments = .directory steps := by
  induction segments generalizing above with
  | nil => exact reached
  | cons segment rest inductionHypothesis =>
      rw [walk] at reached ⊢
      split at reached
      · next stays => rw [if_pos stays, inductionHypothesis reached]
      · next isName =>
          rw [if_neg isName]
          split at reached
          · next up => rw [if_pos up, inductionHypothesis reached]
          · next notUp =>
              rw [if_neg notUp]
              dsimp only at reached ⊢
              split at reached
              · split at reached <;> exact absurd reached (by simp)
              · split at reached
                · next directory =>
                    have known := kept _ (Std.ExtTreeMap.contains_iff_mem.mp directory)
                    have noFile : grown.files[key (segment :: above)]? = none := by
                      rw [← Option.not_isSome_iff_eq_none, ← Std.ExtTreeMap.mem_iff_isSome_getElem?]
                      exact fun isFile => wellFormed.apart _ isFile known
                    rw [noFile]
                    simp only [Std.ExtTreeMap.contains_iff_mem.mpr known, if_true]
                    exact inductionHypothesis reached
                · exact absurd reached (by simp)

theorem parts_pathOf {steps : List String} (clean : ∀ step ∈ steps, Clean step) :
    parts (pathOf steps) = steps.reverse := by
  have slash : pathOf steps = "" ++ "/" ++ key steps := by simp [pathOf]
  have below : parts (key steps) = steps.reverse :=
    parts_join fun step member => clean step (List.mem_reverse.mp member)
  have top : Text.split '/' "" = [""] := by decide
  rw [slash, parts, Text.split_append, top, List.filter_append]
  exact below

theorem stepsOf_pathOf {steps : List String} (clean : ∀ step ∈ steps, Clean step) :
    stepsOf (pathOf steps) = steps := by
  cases steps with
  | nil => decide
  | cons name above =>
      have cleanOrder : ∀ step ∈ (name :: above).reverse, Clean step :=
        fun step member => clean step (List.mem_reverse.mp member)
      have top : stepsOf "" = [] := by decide
      have slash : pathOf (name :: above) =
          "" ++ "/" ++ Text.join "/" (name :: above).reverse := by
        simp [pathOf, key]
      rw [slash, stepsOf_append "" (by simp) cleanOrder, top]
      simp

/-- Clean steps after the path of others are walked one after the other. -/
theorem find_append (tree : FileTree) {above steps : List String}
    (cleanAbove : ∀ step ∈ above, Clean step) (nonempty : ¬ steps = [])
    (clean : ∀ step ∈ steps, Clean step) :
    tree.find (pathOf above ++ "/" ++ Text.join "/" steps) =
      tree.walk [] (above.reverse ++ steps) := by
  have below : Text.split '/' (Text.join "/" steps) = steps :=
    Text.split_join nonempty fun step member => (clean step member).free
  cases above with
  | nil =>
      have top : Text.split '/' (pathOf []) = ["", ""] := by decide
      rw [find, Text.split_append, below, top, List.cons_append, walk_skip, List.cons_append,
        walk_skip]
      rfl
  | cons name rest =>
      have order : Text.split '/' (pathOf (name :: rest)) = "" :: (name :: rest).reverse := by
        have slash : pathOf (name :: rest) = "" ++ "/" ++ key (name :: rest) := by
          simp [pathOf]
        rw [slash, Text.split_append, key, Text.split_join (by simp)]
        · rfl
        · intro step member
          exact (cleanAbove step (List.mem_reverse.mp member)).free
      rw [find, Text.split_append, below, order, List.cons_append, walk_skip]

end FileTree

namespace Workspace

/-! ## Normal form -/

theorem stepsBelow?_eq_some (above steps below : List String) :
    stepsBelow? above steps = some below ↔ steps = above ++ below := by
  induction above generalizing steps with
  | nil => simp [stepsBelow?]
  | cons step rest inductionHypothesis =>
      cases steps with
      | nil => simp [stepsBelow?]
      | cons next more =>
          rw [stepsBelow?]
          by_cases same : step = next
          · rw [if_pos same, inductionHypothesis]
            simp [same]
          · rw [if_neg same]
            have different : ¬ next = step := fun equal => same equal.symm
            simp [different]

theorem free_parts (path : String) : ∀ part ∈ parts path, ¬ '/' ∈ part.toList :=
  fun _ member => Text.not_mem_of_mem_split (List.mem_filter.mp member).1

/-- A normal form is made of clean steps. -/
theorem exists_steps_of_relative? {workspace : Workspace} {path normal : String}
    (made : workspace.relative? path = some normal) :
    ∃ steps, ¬ steps = [] ∧ (∀ step ∈ steps, Clean step) ∧ normal = Text.join "/" steps := by
  obtain ⟨reduced, bound, rfl⟩ := Option.map_eq_some_iff.mp made
  obtain ⟨steps, chosen, normalized⟩ := Option.bind_eq_some_iff.mp bound
  have free : ∀ step ∈ steps, ¬ '/' ∈ step.toList := by
    intro step member
    split at chosen
    · rw [stepsBelow?_eq_some] at chosen
      exact free_parts path step (chosen ▸ List.mem_append_right _ member)
    · exact free_parts path step (Option.some.inj chosen ▸ member)
  unfold normalSteps? at normalized
  split at normalized
  · exact absurd normalized (by simp)
  · next reached nonempty followed =>
      rw [Option.some.injEq] at normalized
      subst normalized
      refine ⟨reached.reverse, ?_, ?_, rfl⟩
      · simpa using nonempty
      · intro step member
        exact FileTree.foldlM_follow?_clean free (by simp) followed step (List.mem_reverse.mp member)
  · exact absurd normalized (by simp)

theorem startsWith_slash_join {steps : List String} (clean : ∀ step ∈ steps, Clean step) :
    Text.startsWith "/" (Text.join "/" steps) = false := by
  cases steps with
  | nil => decide
  | cons first rest =>
      have firstClean := clean first (by simp)
      obtain ⟨character, more, spelled⟩ : ∃ character more, first.toList = character :: more := by
        cases letters : first.toList with
        | nil => exact absurd (String.toList_inj.mp (letters.trans rfl)) firstClean.nonempty
        | cons character more => exact ⟨character, more, rfl⟩
      have notSlash : ¬ '/' = character := by
        rintro rfl
        exact firstClean.free (by simp [spelled])
      obtain ⟨tail, whole⟩ :
          ∃ tail, (Text.join "/" (first :: rest)).toList = character :: tail := by
        cases rest with
        | nil => exact ⟨more, spelled⟩
        | cons second others =>
            rw [Text.join, String.toList_append, String.toList_append, spelled]
            · exact ⟨_, rfl⟩
            · simp
      simp [Text.startsWith, whole, List.isPrefixOf, notSlash]

/-- Clean steps are a normal form. -/
theorem relative?_join (workspace : Workspace) {steps : List String} (nonempty : ¬ steps = [])
    (clean : ∀ step ∈ steps, Clean step) :
    workspace.relative? (Text.join "/" steps) = some (Text.join "/" steps) := by
  have normal : normalSteps? steps = some steps := by
    unfold normalSteps?
    rw [FileTree.foldlM_follow?_of_clean clean []]
    cases steps with
    | nil => exact absurd rfl nonempty
    | cons first rest =>
        simp only [List.append_nil]
        split
        · next empty => exact absurd empty (by simp)
        · next reached _ same =>
            rw [← Option.some.inj same, List.reverse_reverse]
        · next none => exact absurd none (by simp)
  unfold relative?
  rw [startsWith_slash_join clean, parts_join clean]
  simp [normal]

/-! ## Files by path -/

/-- The directory of the workspace is given by clean steps, the last one first. -/
def Rooted (workspace : Workspace) : Prop :=
  ∃ above, (∀ step ∈ above, Clean step) ∧ workspace.root = FileTree.pathOf above

theorem rooted_of_make {tree : FileTree} {root : String} {settings : IndexSettings}
    {workspace : Workspace} (made : make tree root settings = .ok workspace) :
    workspace.Rooted := by
  unfold make at made
  cases found : tree.find root with
  | directory steps =>
      have clean : ∀ step ∈ steps, Clean step :=
        FileTree.walk_directory_clean (fun _ => Text.not_mem_of_mem_split) (by simp) found
      refine ⟨steps, clean, ?_⟩
      simp only [found, bind, Except.bind] at made
      split at made
      · exact absurd made (by simp)
      · split at made
        · exact absurd made (by simp)
        · exact (congrArg Workspace.root (Except.ok.inj made)).symm
  | file steps file => simp [found] at made
  | missing => simp [found] at made
  | blocked => simp [found] at made

/-- A workspace can be made again as long as no directory is taken away. -/
theorem make_of_grown {tree grown : FileTree} (wellFormed : grown.WellFormed)
    (kept : ∀ place, place ∈ tree.directories → place ∈ grown.directories)
    {root : String} {settings : IndexSettings} {workspace : Workspace}
    (made : make tree root settings = .ok workspace) :
    make grown root settings = .ok workspace := by
  unfold make at made ⊢
  cases found : tree.find root with
  | directory steps =>
      have again : grown.find root = .directory steps :=
        FileTree.walk_directory_of_grown wellFormed kept found
      simpa only [found, again] using made
  | file steps file => simp [found] at made
  | missing => simp [found] at made
  | blocked => simp [found] at made

/-- The file at a path. -/
def fileAt? (workspace : Workspace) (tree : FileTree) (path : String) : Option File :=
  match tree.find (workspace.absolute path) with
  | .file _ file => some file
  | _ => none

/-- Where a tree keeps the file at a path. -/
def place (workspace : Workspace) (path : String) : String :=
  FileTree.key (FileTree.stepsOf (workspace.absolute path))

theorem absolute_join {workspace : Workspace} {steps : List String}
    (clean : ∀ step ∈ steps, Clean step) :
    workspace.absolute (Text.join "/" steps) =
      workspace.root ++ "/" ++ Text.join "/" steps := by
  rw [absolute, Path.resolve, startsWith_slash_join clean]
  simp

section Places

variable {workspace : Workspace} {tree : FileTree} {path : String}

theorem find_eq_file (rooted : workspace.Rooted) (wellFormed : tree.WellFormed)
    (normal : workspace.relative? path = some path) (found : List String) (file : File) :
    tree.find (workspace.absolute path) = .file found file ↔
      found = FileTree.stepsOf (workspace.absolute path) ∧
        tree.files[FileTree.key found]? = some file := by
  obtain ⟨above, cleanAbove, root⟩ := rooted
  obtain ⟨steps, nonempty, clean, rfl⟩ := exists_steps_of_relative? normal
  rw [absolute_join clean, root, FileTree.find_append tree cleanAbove nonempty clean,
    FileTree.stepsOf_append _ nonempty clean, FileTree.stepsOf_pathOf cleanAbove,
    wellFormed.walk_eq_file]
  · simp
  · simp [nonempty]
  · intro step member
    simp only [List.reverse_append, List.reverse_reverse, List.append_nil, List.mem_append,
      List.mem_reverse] at member
    exact member.elim (clean step) (cleanAbove step)

/-- A path leads to the file that is kept at its place. -/
theorem fileAt?_eq (rooted : workspace.Rooted) (wellFormed : tree.WellFormed)
    (normal : workspace.relative? path = some path) :
    workspace.fileAt? tree path = tree.files[workspace.place path]? := by
  have leads := find_eq_file rooted wellFormed normal
  cases kept : tree.files[workspace.place path]? with
  | some file =>
      have found := (leads _ file).mpr ⟨rfl, kept⟩
      simp [fileAt?, found]
  | none =>
      unfold fileAt?
      split
      · next steps file found =>
          obtain ⟨rfl, same⟩ := (leads _ file).mp found
          exact absurd (kept.symm.trans same) (by simp)
      · rfl

theorem place_join (above steps : List String) (root : workspace.root = FileTree.pathOf above)
    (cleanAbove : ∀ step ∈ above, Clean step) (nonempty : ¬ steps = [])
    (clean : ∀ step ∈ steps, Clean step) :
    workspace.place (Text.join "/" steps) = FileTree.key (steps.reverse ++ above) := by
  rw [place, absolute_join clean, root, FileTree.stepsOf_append _ nonempty clean,
    FileTree.stepsOf_pathOf cleanAbove]

/-- Different paths have different places. -/
theorem place_inj (rooted : workspace.Rooted) {other : String}
    (normal : workspace.relative? path = some path)
    (otherNormal : workspace.relative? other = some other)
    (same : workspace.place path = workspace.place other) : path = other := by
  obtain ⟨above, cleanAbove, root⟩ := rooted
  obtain ⟨steps, nonempty, clean, rfl⟩ := exists_steps_of_relative? normal
  obtain ⟨others, otherNonempty, otherClean, rfl⟩ := exists_steps_of_relative? otherNormal
  rw [place_join above steps root cleanAbove nonempty clean,
    place_join above others root cleanAbove otherNonempty otherClean] at same
  have equal : steps.reverse ++ above = others.reverse ++ above := by
    apply FileTree.key_inj _ _ same
    · intro step member
      rcases List.mem_append.mp member with inside | higher
      · exact clean step (List.mem_reverse.mp inside)
      · exact cleanAbove step higher
    · intro step member
      rcases List.mem_append.mp member with inside | higher
      · exact otherClean step (List.mem_reverse.mp inside)
      · exact cleanAbove step higher
  rw [List.append_cancel_right_eq, List.reverse_inj] at equal
  rw [equal]

/-- The files in the workspace, by their paths. -/
def filesIn (workspace : Workspace) (tree : FileTree) : List (String × File) :=
  tree.files.toList.filterMap fun entry =>
    match stepsBelow? (parts workspace.root) (parts entry.1) with
    | some (first :: rest) => some (Text.join "/" (first :: rest), entry.2)
    | _ => none

theorem mem_filesIn_of_below {file : File} {place : String} {steps : List String}
    (nonempty : ¬ steps = []) (kept : tree.files[place]? = some file)
    (below : stepsBelow? (parts workspace.root) (parts place) = some steps) :
    (Text.join "/" steps, file) ∈ workspace.filesIn tree := by
  refine List.mem_filterMap.mpr
    ⟨(place, file), Std.ExtTreeMap.mem_toList_iff_getElem?_eq_some.mpr kept, ?_⟩
  cases steps with
  | nil => exact absurd rfl nonempty
  | cons first rest => simp [below]

/-- The steps to a file are clean, from wherever they are given. -/
theorem clean_of_below (wellFormed : tree.WellFormed) {place : String} {file : File}
    {above steps : List String} (kept : tree.files[place]? = some file)
    (below : stepsBelow? above (parts place) = some steps) : ∀ step ∈ steps, Clean step := by
  obtain ⟨whole, _, clean, rfl⟩ := wellFormed.names place
    (Std.ExtTreeMap.mem_iff_isSome_getElem?.mpr (by simp [kept]))
  have order : parts (FileTree.key whole) = whole.reverse :=
    parts_join fun step inside => clean step (List.mem_reverse.mp inside)
  rw [stepsBelow?_eq_some, order] at below
  intro step inside
  apply clean step
  rw [← List.mem_reverse, below]
  exact List.mem_append_right above inside

/-- The files in the workspace are those that paths in normal form lead to. -/
theorem mem_filesIn (rooted : workspace.Rooted) (wellFormed : tree.WellFormed) (file : File) :
    (path, file) ∈ workspace.filesIn tree ↔
      workspace.relative? path = some path ∧ workspace.fileAt? tree path = some file := by
  have rootedAgain := rooted
  obtain ⟨above, cleanAbove, root⟩ := rooted
  have order : ∀ steps, (∀ step ∈ steps, Clean step) → parts (FileTree.key steps) = steps.reverse :=
    fun steps clean => parts_join fun step inside => clean step (List.mem_reverse.mp inside)
  constructor
  · intro member
    obtain ⟨⟨place, other⟩, inTree, chosen⟩ := List.mem_filterMap.mp member
    have found : tree.files[place]? = some other :=
      Std.ExtTreeMap.mem_toList_iff_getElem?_eq_some.mp inTree
    split at chosen
    · next first rest below =>
        obtain ⟨rfl, rfl⟩ := Prod.mk.inj (Option.some.inj chosen)
        have cleanSteps := clean_of_below wellFormed found below
        have normal := relative?_join workspace (by simp) cleanSteps
        refine ⟨normal, ?_⟩
        obtain ⟨whole, _, clean, rfl⟩ := wellFormed.names place
          (Std.ExtTreeMap.mem_iff_isSome_getElem?.mpr (by simp [found]))
        rw [stepsBelow?_eq_some, order whole clean, root, FileTree.parts_pathOf cleanAbove] at below
        have isBelow : whole = (first :: rest).reverse ++ above := by
          rw [← List.reverse_inj, below]
          simp
        rw [fileAt?_eq rootedAgain wellFormed normal,
          place_join above (first :: rest) root cleanAbove (by simp) cleanSteps, ← isBelow, found]
    · exact absurd chosen (by simp)
  · rintro ⟨normal, found⟩
    obtain ⟨steps, nonempty, clean, rfl⟩ := exists_steps_of_relative? normal
    rw [fileAt?_eq rootedAgain wellFormed normal,
      place_join above steps root cleanAbove nonempty clean] at found
    have cleanWhole : ∀ step ∈ steps.reverse ++ above, Clean step := by
      intro step inside
      rcases List.mem_append.mp inside with lower | higher
      · exact clean step (List.mem_reverse.mp lower)
      · exact cleanAbove step higher
    apply mem_filesIn_of_below nonempty found
    rw [order _ cleanWhole, root, FileTree.parts_pathOf cleanAbove, stepsBelow?_eq_some]
    simp

/-- Whatever the files are, only what is to be indexed is listed. -/
theorem isIndexable_of_mem_listFiles (listed : path ∈ workspace.listFiles tree) :
    workspace.isIndexable path = true := by
  obtain ⟨⟨place, file⟩, _, chosen⟩ := List.mem_filterMap.mp listed
  split at chosen
  · next steps below =>
      split at chosen
      · next accepted =>
          obtain rfl := Option.some.inj chosen
          simp only [lists, Bool.and_eq_true] at accepted
          exact accepted.1.2
      · exact absurd chosen (by simp)
  · exact absurd chosen (by simp)

theorem indexable_of_isIndexable (accepted : workspace.isIndexable path = true) :
    (Language.ofPath path).isIndexable = true := by
  simp only [isIndexable, Bool.and_eq_true] at accepted
  exact accepted.1.1

theorem indexable_of_mem_listFiles (listed : path ∈ workspace.listFiles tree) :
    (Language.ofPath path).isIndexable = true :=
  indexable_of_isIndexable (isIndexable_of_mem_listFiles listed)

/-- What is listed is the files that paths in normal form lead to and that the workspace accepts. -/
theorem mem_listFiles (rooted : workspace.Rooted) (wellFormed : tree.WellFormed) :
    path ∈ workspace.listFiles tree ↔
      ∃ file, workspace.relative? path = some path ∧ workspace.fileAt? tree path = some file ∧
        workspace.lists tree (parts path) file = true := by
  constructor
  · intro listed
    obtain ⟨⟨place, file⟩, member, chosen⟩ := List.mem_filterMap.mp listed
    have kept := Std.ExtTreeMap.mem_toList_iff_getElem?_eq_some.mp member
    split at chosen
    · next steps below =>
        split at chosen
        · next accepted =>
            obtain rfl := Option.some.inj chosen
            have nonempty : ¬ steps = [] := by
              rintro rfl
              exact absurd accepted (by simp [lists, Ignore.reaches])
            have clean := clean_of_below wellFormed kept below
            obtain ⟨normal, found⟩ := (mem_filesIn rooted wellFormed file).mp
              (mem_filesIn_of_below nonempty kept below)
            refine ⟨file, normal, found, ?_⟩
            rw [parts_join clean]
            exact accepted
        · exact absurd chosen (by simp)
    · exact absurd chosen (by simp)
  · rintro ⟨file, normal, found, accepted⟩
    obtain ⟨⟨place, other⟩, member, chosen⟩ := List.mem_filterMap.mp
      ((mem_filesIn rooted wellFormed file).mpr ⟨normal, found⟩)
    refine List.mem_filterMap.mpr ⟨(place, other), member, ?_⟩
    have kept := Std.ExtTreeMap.mem_toList_iff_getElem?_eq_some.mp member
    split at chosen
    · next first rest below =>
        obtain ⟨rfl, rfl⟩ := Prod.mk.inj (Option.some.inj chosen)
        have clean := clean_of_below wellFormed kept below
        rw [parts_join clean] at accepted
        simp [below, accepted]
    · exact absurd chosen (by simp)

/-- A file is listed if it is to be indexed and not too large, its path is in normal form, and no rule
passes it over. -/
theorem mem_listFiles_of_found {file : File} (rooted : workspace.Rooted) (wellFormed : tree.WellFormed)
    (found : workspace.fileAt? tree path = some file) :
    path ∈ workspace.listFiles tree ↔
      (workspace.isIndexable path = true ∧ file.bytes.size ≤ workspace.maxFileSize) ∧
        workspace.relative? path = some path ∧
        Ignore.reaches tree workspace.rootSteps (parts path) = true := by
  rw [mem_listFiles rooted wellFormed]
  constructor
  · rintro ⟨other, normal, there, accepted⟩
    obtain rfl := Option.some.inj (found.symm.trans there)
    obtain ⟨steps, _, clean, rfl⟩ := exists_steps_of_relative? normal
    rw [parts_join clean] at accepted ⊢
    simp only [lists, Bool.and_eq_true, decide_eq_true_eq] at accepted
    exact ⟨⟨accepted.1.2, accepted.2⟩, normal, accepted.1.1⟩
  · rintro ⟨⟨indexable, small⟩, normal, reaches⟩
    refine ⟨file, normal, found, ?_⟩
    obtain ⟨steps, _, clean, rfl⟩ := exists_steps_of_relative? normal
    rw [parts_join clean] at reaches ⊢
    simp [lists, reaches, indexable, small]

/-- What is listed is in normal form, to be indexed, and there. -/
theorem of_mem_listFiles (rooted : workspace.Rooted) (wellFormed : tree.WellFormed)
    (listed : path ∈ workspace.listFiles tree) :
    workspace.relative? path = some path ∧ workspace.isIndexable path = true ∧
      (workspace.fileAt? tree path).isSome := by
  obtain ⟨file, normal, found, _⟩ := (mem_listFiles rooted wellFormed).mp listed
  exact ⟨normal, isIndexable_of_mem_listFiles listed, by simp [found]⟩

/-! ## Reading -/

theorem read_eq_ok (bytes : ByteArray) :
    workspace.read tree path = .ok bytes ↔
      ∃ file, workspace.fileAt? tree path = some file ∧
        file.bytes.size ≤ workspace.maxFileSize ∧ file.bytes = bytes := by
  unfold read fileAt?
  cases tree.find (workspace.absolute path) with
  | file steps file =>
      by_cases small : file.bytes.size ≤ workspace.maxFileSize
      · simp [small]
      · simp [small]
  | directory steps => simp
  | missing => simp
  | blocked => simp

theorem fileAt?_eq_none_of_missing (missing : workspace.read tree path = .error .missing) :
    workspace.fileAt? tree path = none := by
  unfold read at missing
  unfold fileAt?
  cases found : tree.find (workspace.absolute path) with
  | file steps file =>
      simp only [found] at missing
      split at missing <;> exact absurd missing (by simp)
  | directory steps => rfl
  | missing => rfl
  | blocked => rfl

theorem exists_of_hasFile (present : workspace.hasFile tree path = true) :
    ∃ steps file, tree.find (workspace.absolute path) = .file steps file := by
  unfold hasFile FileTree.isFile at present
  split at present
  · next steps file found => exact ⟨steps, file, found⟩
  · exact absurd present (by simp)

/-! ## Changes -/

theorem compare_place (rooted : workspace.Rooted) {other : String}
    (normal : workspace.relative? path = some path)
    (otherNormal : workspace.relative? other = some other) :
    compare (workspace.place path) (workspace.place other) = .eq ↔ path = other := by
  rw [Std.LawfulEqCmp.compare_eq_iff_eq]
  constructor
  · exact place_inj rooted normal otherNormal
  · rintro rfl
    rfl

theorem fileAt?_write? (rooted : workspace.Rooted) (wellFormed : tree.WellFormed)
    (normal : workspace.relative? path = some path) {after : FileTree} {file : File}
    {now : Timestamp} (written : tree.write? (workspace.absolute path) file now = some after)
    {other : String} (otherNormal : workspace.relative? other = some other) :
    workspace.fileAt? after other =
      if path = other then some file else workspace.fileAt? tree other := by
  obtain ⟨wellFormedAfter, files, _⟩ := wellFormed.write? written
  rw [fileAt?_eq rooted wellFormedAfter otherNormal, fileAt?_eq rooted wellFormed otherNormal,
    files, ← place, Std.ExtTreeMap.getElem?_insert]
  simp only [compare_place rooted normal otherNormal]

theorem fileAt?_remove? (rooted : workspace.Rooted) (wellFormed : tree.WellFormed)
    (normal : workspace.relative? path = some path) {after : FileTree}
    (present : workspace.hasFile tree path = true)
    (removed : tree.remove? (workspace.absolute path) = some after) :
    after.WellFormed ∧ after.directories = tree.directories ∧
      ∀ other, workspace.relative? other = some other →
        workspace.fileAt? after other =
          if path = other then none else workspace.fileAt? tree other := by
  obtain ⟨steps, file, found⟩ := exists_of_hasFile present
  obtain ⟨isPlace, _⟩ := (find_eq_file rooted wellFormed normal steps file).mp found
  obtain ⟨wellFormedAfter, files, directories⟩ := wellFormed.remove? found removed
  refine ⟨wellFormedAfter, directories, fun other otherNormal => ?_⟩
  rw [fileAt?_eq rooted wellFormedAfter otherNormal, fileAt?_eq rooted wellFormed otherNormal,
    files, isPlace, ← place, Std.ExtTreeMap.getElem?_erase]
  simp only [compare_place rooted normal otherNormal]

end Places

end Workspace

end CodeIndex
