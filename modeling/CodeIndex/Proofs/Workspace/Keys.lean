import CodeIndex.Proofs.Path.Walk
import CodeIndex.Proofs.Workspace

/-!
Contract: the key of a path, under which everything about a file is kept.

Owns:
- `Workspace.Enters`: the steps of a path from the workspace's directory;
- `Workspace.relative?_eq_some`: a key is what is left of these steps without detours;
- `Workspace.stepsOf_resolve`: a path and its key lead to the same place from the top;
- `Workspace.keys_are_canonical`: which paths have a key, and when two of them have the same.

A path that goes above the workspace's directory on its way has no key, even if it comes back into
the directory.
-/

set_option autoImplicit false

namespace CodeIndex

open CodeIndex.Path

namespace FileTree

/-- One step from the top, which has nothing above it. -/
def stepFrom (steps : List String) (segment : String) : List String :=
  (Specifier.follow? steps segment).getD steps

theorem foldl_stepFrom_of_shortened {longer shorter : List String}
    (short : Shortened longer shorter) (above : List String) :
    longer.foldl stepFrom above = shorter.foldl stepFrom above := by
  induction short with
  | refl => rfl
  | tail _ last inductionHypothesis =>
      rw [inductionHypothesis]
      cases last with
      | stay before after idle =>
          simp only [List.foldl_append, List.foldl_cons, stepFrom, follow?_of_idle idle,
            Option.getD_some]
      | detour before after down =>
          simp only [List.foldl_append, List.foldl_cons, stepFrom, follow?_of_clean down,
            Option.getD_some]
          rfl

theorem foldl_stepFrom_of_clean {steps : List String} (clean : ∀ step ∈ steps, Clean step)
    (above : List String) : steps.foldl stepFrom above = steps.reverse ++ above := by
  induction steps generalizing above with
  | nil => rfl
  | cons first rest inductionHypothesis =>
      have later := inductionHypothesis
        fun step member => clean step (List.mem_cons_of_mem first member)
      rw [List.foldl_cons, stepFrom, follow?_of_clean (clean first List.mem_cons_self),
        Option.getD_some, later, List.reverse_cons, List.append_assoc]
      rfl

theorem stepsOf_eq (path : String) : stepsOf path = (parts path).foldl stepFrom [] :=
  foldl_stepFrom_of_shortened (shortened_parts path) []

end FileTree

namespace Workspace

variable {workspace : Workspace} {path : String} {steps place : List String}

/-- The steps that a path takes from the workspace's directory: all of a relative path, and those of
an absolute path that begins with the directory's own ones which are behind these. -/
def Enters (workspace : Workspace) (path : String) (steps : List String) : Prop :=
  if Text.startsWith "/" path = true then
    parts path = parts workspace.root ++ steps
  else
    parts path = steps

theorem Enters.free (enters : workspace.Enters path steps) :
    ∀ step ∈ steps, ¬ '/' ∈ step.toList := by
  intro step member
  apply free_parts path step
  unfold Enters at enters
  split at enters
  · exact enters ▸ List.mem_append_right _ member
  · exact enters ▸ member

theorem parts_resolve (enters : workspace.Enters path steps) :
    parts (Path.resolve workspace.root path) = parts workspace.root ++ steps := by
  unfold Enters at enters
  unfold Path.resolve
  split at enters
  · next absolute => rw [if_pos absolute, enters]
  · next relative =>
      rw [if_neg relative, parts, Text.split_append, List.filter_append, ← enters]
      rfl

theorem normalSteps?_eq_some (free : ∀ step ∈ steps, ¬ '/' ∈ step.toList) :
    normalSteps? steps = some place ↔
      Shortened steps place ∧ (∀ step ∈ place, Clean step) ∧ ¬ place = [] := by
  have leads := foldlM_follow?_eq_some free place
  rw [← and_assoc, ← leads]
  unfold normalSteps?
  cases steps.foldlM Specifier.follow? [] with
  | none => simp
  | some reached =>
      cases reached with
      | nil => simp
      | cons last above =>
          rw [Option.some.injEq, Option.some.injEq, List.reverse_eq_iff]
          refine ⟨fun same => ⟨same, ?_⟩, And.left⟩
          rintro rfl
          cases same

/-- A key is made of the steps that are left without detours. -/
theorem relative?_eq_some (key : String) :
    workspace.relative? path = some key ↔
      ∃ steps place, workspace.Enters path steps ∧ Shortened steps place ∧
        (∀ step ∈ place, Clean step) ∧ ¬ place = [] ∧ Text.join "/" place = key := by
  have entered (steps : List String) :
      (if Text.startsWith "/" path then stepsBelow? (parts workspace.root) (parts path)
        else some (parts path)) = some steps ↔ workspace.Enters path steps := by
    unfold Enters
    split
    · exact stepsBelow?_eq_some _ _ _
    · exact Option.some_inj
  unfold relative?
  simp only [Option.map_eq_some_iff, Option.bind_eq_some_iff, entered]
  constructor
  · rintro ⟨place, ⟨steps, enters, normal⟩, joined⟩
    obtain ⟨short, clean, nonempty⟩ := (normalSteps?_eq_some enters.free).mp normal
    exact ⟨steps, place, enters, short, clean, nonempty, joined⟩
  · rintro ⟨steps, place, enters, short, clean, nonempty, joined⟩
    have normal := (normalSteps?_eq_some enters.free).mpr ⟨short, clean, nonempty⟩
    exact ⟨place, ⟨steps, enters, normal⟩, joined⟩

/-- The steps of a path have a place below the directory if they never climb above it and more of
them lead down than up. -/
theorem exists_place (free : ∀ step ∈ steps, ¬ '/' ∈ step.toList) :
    (∃ place, Shortened steps place ∧ (∀ step ∈ place, Clean step) ∧ ¬ place = []) ↔
      StaysInside 0 steps ∧ ascents steps < descents steps := by
  constructor
  · rintro ⟨place, short, clean, nonempty⟩
    have followed := (foldlM_follow?_eq_some free place).mpr ⟨short, clean⟩
    have depth := length_foldlM_follow? free followed
    have below : 0 < place.length := List.length_pos_iff.mpr nonempty
    refine ⟨(exists_foldlM_follow? free []).mp ⟨_, followed⟩, ?_⟩
    rw [List.length_reverse, List.length_nil] at depth
    omega
  · rintro ⟨inside, deeper⟩
    obtain ⟨reached, followed⟩ := (exists_foldlM_follow? free []).mpr inside
    have depth := length_foldlM_follow? free followed
    rw [← List.reverse_reverse reached] at followed
    obtain ⟨short, clean⟩ := (foldlM_follow?_eq_some free _).mp followed
    refine ⟨reached.reverse, short, clean, ?_⟩
    rw [← List.length_eq_zero_iff, List.length_reverse]
    rw [List.length_nil] at depth
    omega

/-- A path that is read in the workspace's directory leads below it, to where its key does. -/
theorem stepsOf_resolve (enters : workspace.Enters path steps) (short : Shortened steps place)
    (clean : ∀ step ∈ place, Clean step) :
    FileTree.stepsOf (Path.resolve workspace.root path) =
      place.reverse ++ FileTree.stepsOf workspace.root := by
  rw [FileTree.stepsOf_eq, parts_resolve enters, List.foldl_append, ← FileTree.stepsOf_eq,
    FileTree.foldl_stepFrom_of_shortened short, FileTree.foldl_stepFrom_of_clean clean]

theorem enters_absolute (absoluteRoot : Text.startsWith "/" workspace.root = true)
    (clean : ∀ step ∈ place, Clean step) :
    workspace.Enters (workspace.absolute (Text.join "/" place)) place := by
  have absolute : Text.startsWith "/" (workspace.root ++ "/" ++ Text.join "/" place) = true := by
    rw [Text.startsWith, List.isPrefixOf_iff_prefix] at absoluteRoot ⊢
    rw [String.toList_append, String.toList_append, List.append_assoc]
    exact absoluteRoot.trans (List.prefix_append _ _)
  unfold Enters
  rw [absolute_join clean, if_pos absolute, parts, Text.split_append, List.filter_append]
  exact congrArg (parts workspace.root ++ ·) (parts_join clean)

/-- A path has a key if it is relative, or absolute with the directory's steps in front, and its
further steps never climb above the directory and end below it. The key is made of names, which are
what is left of the steps without detours. It is its own key, also with the directory in front, and
the path and the key lead to one place, which is below the directory. So two paths have the same key
just if they lead to the same place. The directory is given by an absolute path, as in every
workspace that was made. -/
theorem keys_are_canonical (workspace : Workspace)
    (absoluteRoot : Text.startsWith "/" workspace.root = true) (path : String) :
    ((∃ key, workspace.relative? path = some key) ↔
        ∃ steps, workspace.Enters path steps ∧ StaysInside 0 steps ∧
          ascents steps < descents steps) ∧
      (∀ key, workspace.relative? path = some key →
        (∀ step ∈ Text.split '/' key, Clean step) ∧
          (∃ steps, workspace.Enters path steps ∧ Shortened steps (Text.split '/' key)) ∧
          workspace.relative? key = some key ∧
          workspace.relative? (workspace.absolute key) = some key ∧
          FileTree.stepsOf (workspace.absolute key) =
            (Text.split '/' key).reverse ++ FileTree.stepsOf workspace.root ∧
          FileTree.stepsOf (Path.resolve workspace.root path) =
            FileTree.stepsOf (workspace.absolute key)) ∧
      ∀ other key otherKey, workspace.relative? path = some key →
        workspace.relative? other = some otherKey →
          (key = otherKey ↔
            FileTree.stepsOf (Path.resolve workspace.root path) =
              FileTree.stepsOf (Path.resolve workspace.root other)) := by
  refine ⟨?_, ?_, ?_⟩
  · constructor
    · rintro ⟨key, found⟩
      obtain ⟨steps, place, enters, short, clean, nonempty, _⟩ := (relative?_eq_some key).mp found
      exact ⟨steps, enters, (exists_place enters.free).mp ⟨place, short, clean, nonempty⟩⟩
    · rintro ⟨steps, enters, inside⟩
      obtain ⟨place, short, clean, nonempty⟩ := (exists_place enters.free).mpr inside
      exact ⟨_, (relative?_eq_some _).mpr ⟨steps, place, enters, short, clean, nonempty, rfl⟩⟩
  · intro key found
    obtain ⟨steps, place, enters, short, clean, nonempty, rfl⟩ := (relative?_eq_some key).mp found
    have cut : Text.split '/' (Text.join "/" place) = place :=
      Text.split_join nonempty fun step member => (clean step member).free
    have whole : FileTree.stepsOf (workspace.absolute (Text.join "/" place)) =
        place.reverse ++ FileTree.stepsOf workspace.root := by
      rw [absolute_join clean, FileTree.stepsOf_append _ nonempty clean]
    rw [cut]
    refine ⟨clean, ⟨steps, enters, short⟩, relative?_join workspace nonempty clean, ?_, whole, ?_⟩
    · exact (relative?_eq_some _).mpr ⟨place, place, enters_absolute absoluteRoot clean,
        Relation.ReflTransGen.refl, clean, nonempty, rfl⟩
    · rw [whole, stepsOf_resolve enters short clean]
  · intro other key otherKey found otherFound
    obtain ⟨steps, place, enters, short, clean, _, rfl⟩ := (relative?_eq_some key).mp found
    obtain ⟨others, otherPlace, otherEnters, otherShort, otherClean, _, rfl⟩ :=
      (relative?_eq_some otherKey).mp otherFound
    rw [stepsOf_resolve enters short clean, stepsOf_resolve otherEnters otherShort otherClean,
      List.append_cancel_right_eq, List.reverse_inj]
    exact ⟨join_inj clean otherClean, fun same => by rw [same]⟩

/-- A workspace some levels below the top. -/
def nestedWorkspace : Workspace :=
  { root := "/home/app", includes := [], excludes := [], maxFileSize := 0 }

theorem nestedWorkspace_keys :
    nestedWorkspace.relative? "/home/app/./src//x/../a.ts" = some "src/a.ts" ∧
      nestedWorkspace.relative? "lib/../src/a.ts" = some "src/a.ts" ∧
      nestedWorkspace.relative? (nestedWorkspace.absolute "src/a.ts") = some "src/a.ts" ∧
      FileTree.stepsOf (Path.resolve nestedWorkspace.root "/home/app/./src//x/../a.ts") =
        FileTree.stepsOf (Path.resolve nestedWorkspace.root "lib/../src/a.ts") ∧
      nestedWorkspace.Enters "/home/app/../app/src/a.ts" ["..", "app", "src", "a.ts"] ∧
      ¬ ∃ key, nestedWorkspace.relative? "/home/app/../app/src/a.ts" = some key := by
  have facts : Text.startsWith "/" nestedWorkspace.root = true ∧
      nestedWorkspace.relative? "/home/app/./src//x/../a.ts" = some "src/a.ts" ∧
      nestedWorkspace.relative? "lib/../src/a.ts" = some "src/a.ts" ∧
      Text.startsWith "/" "/home/app/../app/src/a.ts" = true ∧
      parts "/home/app/../app/src/a.ts" =
        parts nestedWorkspace.root ++ ["..", "app", "src", "a.ts"] := by
    decide +kernel
  obtain ⟨absoluteRoot, first, second, absolute, outside⟩ := facts
  have enters : nestedWorkspace.Enters "/home/app/../app/src/a.ts"
      ["..", "app", "src", "a.ts"] := by
    rw [Enters, if_pos absolute, outside]
  obtain ⟨_, key, same⟩ :=
    keys_are_canonical nestedWorkspace absoluteRoot "/home/app/./src//x/../a.ts"
  obtain ⟨_, _, _, again, _, _⟩ := key "src/a.ts" first
  have together := (same "lib/../src/a.ts" "src/a.ts" "src/a.ts" first second).mp rfl
  refine ⟨first, second, again, together, enters, ?_⟩
  rw [(keys_are_canonical nestedWorkspace absoluteRoot "/home/app/../app/src/a.ts").1]
  rintro ⟨steps, otherEnters, inside, _⟩
  have both := parts_resolve otherEnters
  rw [parts_resolve enters] at both
  rw [← List.append_cancel_left both] at inside
  exact not_staysInside_up _ inside

end Workspace

end CodeIndex
