import CodeIndex.Config
import CodeIndex.Ignore
import CodeIndex.Language

/-!
Contract: the files of a project that an index is made of.

Owns:
- `Workspace`: a directory with the patterns that its files must and must not match;
- `Workspace.isIndexable`, `Workspace.listFiles`: which files these are;
- `Workspace.read`, `Workspace.modified?`: what a file holds and when it was modified;
- `Workspace.relative?`, `Workspace.requireRelative`: paths from the workspace's directory.
-/

set_option autoImplicit false

namespace CodeIndex

/-- A directory whose files are indexed. -/
structure Workspace where
  /-- The path of the directory, without detours. -/
  root : String
  includes : List Glob
  excludes : List Glob
  /-- The size in bytes up to which files are read. -/
  maxFileSize : Nat

namespace Workspace

/-- The patterns of texts. -/
private def readGlobs (texts : List String) : Except Error (List Glob) :=
  texts.mapM fun text =>
    match Glob.ofText? text with
    | some glob => .ok glob
    | none => .error (.glob text)

/-- The workspace of a directory. -/
def make (tree : FileTree) (root : String) (settings : IndexSettings) :
    Except Error Workspace :=
  match tree.find root with
  | .directory steps => do
      let includes ← readGlobs settings.includes
      let excludes ← readGlobs settings.excludes
      return {
        root := FileTree.pathOf steps
        includes := includes
        excludes := excludes
        maxFileSize := settings.maxFileSize }
  | _ => .error (.projectNotFound root)

/-- Whether a file is one to be indexed: its language is known, it is included and not excluded. -/
def isIndexable (workspace : Workspace) (path : String) : Bool :=
  (Language.ofPath path).isIndexable &&
    (workspace.includes.any fun glob => glob.matchesPath path) &&
    !workspace.excludes.any fun glob => glob.matchesPath path

/-- The path from the top of a path in the workspace. -/
def absolute (workspace : Workspace) (path : String) : String :=
  Path.resolve workspace.root path

/-! ## Files -/

/-- Why a file cannot be read. -/
inductive ReadError where
  | missing
  /-- The file is larger than the given limit. -/
  | tooLarge (limit : Nat)
  /-- A directory is at the place of the file, or a file in its way. -/
  | unreadable
  deriving DecidableEq, Repr

/-- The bytes of a file. -/
def read (workspace : Workspace) (tree : FileTree) (path : String) :
    Except ReadError ByteArray :=
  match tree.find (workspace.absolute path) with
  | .file _ file =>
      if file.bytes.size ≤ workspace.maxFileSize then .ok file.bytes
      else .error (.tooLarge workspace.maxFileSize)
  | .missing => .error .missing
  | .directory _ => .error .unreadable
  | .blocked => .error .unreadable

/-- A reason for which a file cannot be read as an error about its path. -/
def ReadError.toError (path : String) : ReadError → Error
  | .missing => .missingFile
  | .tooLarge limit =>
      .index (path ++ " exceeds " ++ Text.ofNat limit ++ " bytes")
  | .unreadable => .io "Not a directory"

/-- When a file or a directory was modified. -/
def modified? (workspace : Workspace) (tree : FileTree) (path : String) : Option Timestamp :=
  match tree.find (workspace.absolute path) with
  | .file _ file => some file.modified
  | .directory steps => some (tree.directories.getD (FileTree.key steps) 0)
  | _ => none

/-- Whether a path leads to a file. -/
def hasFile (workspace : Workspace) (tree : FileTree) (path : String) : Bool :=
  tree.isFile (workspace.absolute path)

/-! ## Paths -/

/-- What follows the given steps at the beginning of others. -/
def stepsBelow? : List String → List String → Option (List String)
  | [], steps => some steps
  | _ :: _, [] => none
  | step :: above, next :: rest => if step = next then stepsBelow? above rest else none

/-- Steps without detours. Nothing lies above the workspace, and the workspace itself is no file
of it. -/
def normalSteps? (steps : List String) : Option (List String) :=
  match steps.foldlM Specifier.follow? [] with
  | some [] => none
  | some reached => some reached.reverse
  | none => none

/-- The path from the workspace's directory, if it stays inside. -/
def relative? (workspace : Workspace) (path : String) : Option String :=
  let steps :=
    if Text.startsWith "/" path then
      stepsBelow? (Path.parts workspace.root) (Path.parts path)
    else
      some (Path.parts path)
  (steps.bind normalSteps?).map (Text.join "/")

/-- The path from the workspace's directory of a path that was given in some directory. -/
def requireRelative (workspace : Workspace) (tree : FileTree) (directory path : String) :
    Except Error String :=
  let given := Path.resolve directory path
  let resolved := (tree.canonical? given).getD given
  match workspace.relative? resolved with
  | some relative => .ok relative
  | none =>
      match workspace.relative? path with
      | some relative =>
          if workspace.hasFile tree relative then .ok relative
          else .error (.outsideWorkspace path)
      | none => .error (.outsideWorkspace path)

/-! ## Listing -/

/-- The steps of the workspace's directory, the last one first. -/
def rootSteps (workspace : Workspace) : List String :=
  (Path.parts workspace.root).reverse

/-- Whether the workspace lists a file under its path from the top. -/
def lists (workspace : Workspace) (tree : FileTree) (steps : List String) (file : File) : Bool :=
  Ignore.reaches tree workspace.rootSteps steps &&
    workspace.isIndexable (Text.join "/" steps) &&
    decide (file.bytes.size ≤ workspace.maxFileSize)

/-- The files to be indexed, in order. -/
def listFiles (workspace : Workspace) (tree : FileTree) : List String :=
  tree.files.toList.filterMap fun entry =>
    match stepsBelow? (Path.parts workspace.root) (Path.parts entry.1) with
    | some steps =>
        if workspace.lists tree steps entry.2 then some (Text.join "/" steps) else none
    | none => none

end Workspace

end CodeIndex
