import CodeIndex.Error
import CodeIndex.FileTree

/-!
Contract: the project that a directory belongs to.

Owns:
- `Project`: a directory and what marks it as the root of a project;
- `Project.detect`: the innermost directory with a mark, from a place upward;
- `Project.ofPath`: a directory that is given as a project.
-/

set_option autoImplicit false

namespace CodeIndex

/-- What marks a directory as the root of a project. -/
inductive ProjectKind where
  | explicit
  | git
  | nodeJs
  | typeScript
  | javaScript
  | deno
  | bun
  | unknown
  deriving DecidableEq, Repr

/-- The marks and what they stand for. Of several marks the first counts. -/
def projectMarks : List (String × ProjectKind) :=
  [(".codeatlas", .explicit),
    (".git", .git),
    ("package.json", .nodeJs),
    ("tsconfig.json", .typeScript),
    ("jsconfig.json", .javaScript),
    ("deno.json", .deno),
    ("bun.lockb", .bun)]

/-- The root of a project. -/
structure Project where
  root : String
  kind : ProjectKind
  /-- The name of the directory. -/
  name : String
  deriving Repr

namespace Project

/-- The first mark that a directory has. Its steps have the last one first. -/
def markIn? (tree : FileTree) (steps : List String) : Option ProjectKind :=
  (projectMarks.find? fun mark =>
    tree.isPresent (FileTree.pathOf steps ++ "/" ++ mark.1)).map (·.2)

/-- The project of a directory. -/
def ofSteps (tree : FileTree) (steps : List String) : Project :=
  { root := FileTree.pathOf steps
    kind := (markIn? tree steps).getD .unknown
    name := steps.head?.getD "unknown" }

/-- The innermost directory with a mark, from a directory upward. -/
def innermost? (tree : FileTree) : List String → Option (List String)
  | [] => if (markIn? tree []).isSome then some [] else none
  | step :: above =>
      if (markIn? tree (step :: above)).isSome then some (step :: above)
      else innermost? tree above

/-- The project around a file or a directory. -/
def detect (tree : FileTree) (path : String) : Except Error Project :=
  let start :=
    match tree.find path with
    | .file steps _ => some (steps.drop 1)
    | .directory steps => some steps
    | _ => none
  match start.bind (innermost? tree) with
  | some steps => .ok (ofSteps tree steps)
  | none => .error .noProjectRoot

/-- The project of a directory that is given as one. -/
def ofPath (tree : FileTree) (path : String) : Except Error Project :=
  match tree.find path with
  | .directory steps => .ok (ofSteps tree steps)
  | _ => .error (.projectNotFound path)

end Project

end CodeIndex
