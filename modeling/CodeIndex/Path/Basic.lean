import CodeIndex.Text.Split

/-!
Contract: slash-separated paths as texts.

Owns:
- `Path.parts`: the meaningful components;
- `Path.resolve`: paths that are given in a directory;
- `Path.fileName?`, `Path.extension?`: the last component and its extension.
-/

set_option autoImplicit false

namespace CodeIndex.Path

/-- The components of a path. Empty and `.` components say nothing and are left out. -/
def parts (path : String) : List String :=
  (Text.split '/' path).filter fun part => part != "" && part != "."

/-- The path from the top of a path that is given in a directory. -/
def resolve (directory path : String) : String :=
  if Text.startsWith "/" path then path else directory ++ "/" ++ path

/-- The last component, unless it leads upward. -/
def fileName? (path : String) : Option String :=
  match (parts path).getLast? with
  | some ".." => none
  | some name => some name
  | none => none

/-- What follows the last dot of the file name, if anything precedes that dot. -/
def extension? (path : String) : Option String :=
  match fileName? path with
  | some name =>
      match Text.splitLast? '.' name with
      | some (stem, extension) => if stem.isEmpty then none else some extension
      | none => none
  | none => none

end CodeIndex.Path
