import CodeIndex.Path.Basic
import CodeIndex.Record.Basic
import CodeIndex.Specifier
import Std.Data.ExtTreeMap

/-!
Contract: the files that a workspace lies in, as a value.

Owns:
- `FileTree`: files and directories by their steps from the top;
- `FileTree.find`: where a path leads;
- `FileTree.makeDirectory?`, `FileTree.write?`, `FileTree.touch`, `FileTree.remove?`: the changes a
  tree may go through.

Does not own: which files belong to an index.

A file or directory is kept under its steps from the top with slashes between them. The top itself
is always there. Symbolic links are left out: what is at a place is a file, a directory or nothing,
and no place has two paths without detours.
-/

set_option autoImplicit false

namespace CodeIndex

/-- A file: what it holds and when it was last modified. -/
structure File where
  bytes : ByteArray
  modified : Timestamp

/-- Files and directories. -/
structure FileTree where
  files : Std.ExtTreeMap String File := ∅
  /-- Directories with the times at which they were made. -/
  directories : Std.ExtTreeMap String Timestamp := ∅

/-- Where a path leads. The steps to the place have the last one first. -/
inductive Place where
  | file (steps : List String) (file : File)
  | directory (steps : List String)
  /-- Nothing is there. -/
  | missing
  /-- The path goes on after a file. -/
  | blocked

namespace FileTree

def empty : FileTree := {}

/-- The key of a place, given by its steps with the last one first. -/
def key (steps : List String) : String :=
  Text.join "/" steps.reverse

/-- Follows the segments of a path from a directory. Empty segments and `.` stay, `..` goes up and
the top has nothing above it. -/
def walk (tree : FileTree) (steps : List String) : List String → Place
  | [] => .directory steps
  | segment :: rest =>
      if segment = "" ∨ segment = "." then
        walk tree steps rest
      else if segment = ".." then
        walk tree (steps.drop 1) rest
      else
        let next := segment :: steps
        match tree.files[key next]? with
        | some file => if rest.isEmpty then .file next file else .blocked
        | none => if tree.directories.contains (key next) then walk tree next rest else .missing

/-- Where a path leads from the top. -/
def find (tree : FileTree) (path : String) : Place :=
  tree.walk [] (Text.split '/' path)

/-- The bytes of the file that a path leads to. -/
def read? (tree : FileTree) (path : String) : Option ByteArray :=
  match tree.find path with
  | .file _ file => some file.bytes
  | _ => none

def isFile (tree : FileTree) (path : String) : Bool :=
  match tree.find path with
  | .file _ _ => true
  | _ => false

def isDirectory (tree : FileTree) (path : String) : Bool :=
  match tree.find path with
  | .directory _ => true
  | _ => false

/-- Whether anything is at a path. -/
def isPresent (tree : FileTree) (path : String) : Bool :=
  tree.isFile path || tree.isDirectory path

/-- The steps of a path without detours, the last one first. The top has nothing above it. -/
def stepsOf (path : String) : List String :=
  (Text.split '/' path).foldl
    (fun steps segment => (Specifier.follow? steps segment).getD steps) []

/-- The path of steps, the last one first. -/
def pathOf (steps : List String) : String :=
  "/" ++ key steps

/-- The path without detours of whatever a path leads to. -/
def canonical? (tree : FileTree) (path : String) : Option String :=
  match tree.find path with
  | .file steps _ => some (pathOf steps)
  | .directory steps => some (pathOf steps)
  | _ => none

/-- Makes the directories on the way to a place, unless a file is in the way. The steps to make
come in order, those made have the last one first. -/
def makeSteps? (tree : FileTree) (now : Timestamp) (made : List String) :
    List String → Option FileTree
  | [] => some tree
  | step :: rest =>
      let next := step :: made
      if tree.files.contains (key next) then
        none
      else
        let grown := { tree with directories := tree.directories.insertIfNew (key next) now }
        makeSteps? grown now next rest

/-- Makes a directory and those above it. -/
def makeDirectory? (tree : FileTree) (path : String) (now : Timestamp) : Option FileTree :=
  makeSteps? tree now [] (stepsOf path).reverse

/-- Writes a file and makes the directories above it, unless a directory is at its place or a file
is in the way. -/
def write? (tree : FileTree) (path : String) (file : File) (now : Timestamp) : Option FileTree :=
  match stepsOf path with
  | [] => none
  | name :: above =>
      if tree.directories.contains (key (name :: above)) then
        none
      else
        match makeSteps? tree now [] above.reverse with
        | some grown =>
            some { grown with files := grown.files.insert (key (name :: above)) file }
        | none => none

/-- Sets the time of the file that a path leads to. -/
def touch (tree : FileTree) (path : String) (modified : Timestamp) : FileTree :=
  match tree.find path with
  | .file steps file =>
      { tree with files := tree.files.insert (key steps) { file with modified := modified } }
  | _ => tree

/-- Whether a key is that of a directory or of something in it. -/
def isWithin (directory key : String) : Bool :=
  key == directory || directory.isEmpty || Text.startsWith (directory ++ "/") key

/-- Removes a file, or a directory with everything in it. -/
def remove? (tree : FileTree) (path : String) : Option FileTree :=
  match tree.find path with
  | .file steps _ => some { tree with files := tree.files.erase (key steps) }
  | .directory steps =>
      some
        { files := tree.files.filter fun place _ => !isWithin (key steps) place
          directories := tree.directories.filter fun place _ => !isWithin (key steps) place }
  | _ => none

end FileTree

end CodeIndex
