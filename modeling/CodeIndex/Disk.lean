import CodeIndex.Command.Run
import Std.Time.DateTime.Timestamp

/-!
Contract: file trees from a disk, and back.

Owns:
- `Disk.load`: the files that a request may look at;
- `Disk.addKnown`: the files that a running model may look at besides;
- `Disk.store`: the files that a request leaves behind.

Does not own: which files belong to an index, or what is done with them.

A project is looked at twice: once for the names and times of everything in it and for the rules
about what to leave alone, then for the bytes of the files that are to be indexed. Links are passed
over.
-/

set_option autoImplicit false

namespace CodeIndex.Disk

/-- The time of the clock. -/
def now : IO Timestamp := do
  let time ← Std.Time.Timestamp.now
  return Int64.ofInt time.toMillisecondsSinceUnixEpoch.val

/-- When a file or directory was modified. -/
private def modifiedIn (data : IO.FS.Metadata) : Timestamp :=
  Int64.ofInt (data.modified.sec * 1000 + Int.ofNat (data.modified.nsec.toNat / 1000000))

/-- Adds what is at a path, if anything is: a file with its bytes, or a directory without what is
in it. -/
def addPlace (tree : FileTree) (path : String) : IO FileTree := do
  try
    let place ← IO.FS.realPath path
    let data ← place.metadata
    let modified := modifiedIn data
    match data.type with
    | .dir => return (tree.makeDirectory? path modified).getD tree
    | .file =>
        let bytes ← IO.FS.readBinFile place
        return (tree.write? path { bytes := bytes, modified := modified } modified).getD tree
    | _ => return tree
  catch _ => return tree

/-- Adds the places at several paths. -/
def addPlaces (tree : FileTree) (paths : List String) : IO FileTree :=
  paths.foldlM addPlace tree

/-- The entries of a directory that say what it is and what is to be left alone in it. -/
private def telling : List String :=
  projectMarks.map (·.1) ++ Ignore.ruleFiles

/-- Adds a directory and those above it with the entries that say what they are. The steps of the
directory have the last one first. -/
private def addUpward (tree : FileTree) : List String → IO FileTree
  | [] => addPlaces tree (telling.map fun name => "/" ++ name)
  | step :: above => do
      let path := FileTree.pathOf (step :: above)
      let grown ← addUpward tree above
      addPlaces (← addPlace grown path) (telling.map fun name => path ++ "/" ++ name)

/-- Adds everything in a directory, files without their bytes unless they hold rules. -/
private partial def addBelow (tree : FileTree) (path : String) : IO FileTree := do
  try
    let directory ← IO.FS.realPath path
    let mut grown := tree
    for entry in ← directory.readDir do
      let place := path ++ "/" ++ entry.fileName
      let data ← entry.path.symlinkMetadata
      let modified := modifiedIn data
      match data.type with
      | .dir => grown ← addBelow ((grown.makeDirectory? place modified).getD grown) place
      | .file =>
          if telling.contains entry.fileName then
            grown ← addPlace grown place
          else
            let file : File := { bytes := .empty, modified := modified }
            grown := (grown.write? place file modified).getD grown
      | _ => pure ()
    return grown
  catch _ => return tree

/-- The path that a request is about, if it is about a file. -/
private def operandOf? : Command → Option String
  | .skeleton file => some file
  | .imports file => some file
  | .importers file => some file
  | .exports file => some file
  | _ => none

/-- The files that a request may look at. -/
def load (home directory : String) (invocation : Invocation) : IO Session := do
  let time ← now
  let start := FileTree.stepsOf directory
  let around ← addPlace (← addUpward .empty start) (Config.path home)
  let session : Session := { tree := around, home := home, directory := directory, now := time }
  let given := invocation.project.map session.resolve
  let marked ←
    match given with
    | some path => addUpward around (FileTree.stepsOf path)
    | none => pure around
  match ({ session with tree := marked }).locate invocation.project with
  | .error _ => return { session with tree := marked }
  | .ok (_, workspace) =>
      let kept := (State.documents {}).map fun document =>
        session.stateDirectory workspace ++ "/" ++ document.1
      let outline ← addBelow (← addPlaces marked kept) workspace.root
      let listed := (workspace.listFiles outline).map workspace.absolute
      let named := (operandOf? invocation.command).toList.map session.resolve
      return { session with tree := ← addPlaces outline (listed ++ named) }

/-- Adds the files that a model knows of and those that events are about, listed or not. -/
def addKnown (session : Session) (model : Model) (batch : List Event) : IO Session := do
  let known := model.catalog.records.keys ++ model.catalog.listStale ++ batch.map (·.path)
  return { session with tree := ← addPlaces session.tree (known.map model.workspace.absolute) }

/-- Writes a file beside its place and moves it there. -/
private def writePlace (path : String) (bytes : ByteArray) : IO Unit := do
  IO.FS.createDirAll (FileTree.pathOf ((FileTree.stepsOf path).drop 1))
  IO.FS.writeBinFile (path ++ ".tmp") bytes
  IO.FS.rename (path ++ ".tmp") path

/-- Writes the files of a home directory that a request has changed. -/
def store (before after : Session) : IO Unit := do
  let home := FileTree.key (FileTree.stepsOf after.home)
  for (place, file) in after.tree.files.toList do
    let known := (before.tree.files[place]?).map (·.bytes.data)
    if FileTree.isWithin home place && known != some file.bytes.data then
      writePlace ("/" ++ place) file.bytes

end CodeIndex.Disk
