import CodeIndex.Event
import CodeIndex.Workspace

/-!
Contract: what happened to the files of a workspace, as a disk tells it.

Owns:
- `Notice`: what a disk tells about places, whatever is there;
- `FileTree.notices`: what there is to tell between two looks at a disk;
- `Workspace.translate`: a notice as events of files to be indexed.

Notices are made by looking again. That tells of files that are new, modified or gone; a new name
shows as a file that is gone and another that is new.
-/

set_option autoImplicit false

namespace CodeIndex

/-- What a disk can tell about a place. -/
inductive NoticeKind where
  | created
  /-- The place has got a new name or has lost its name. -/
  | renamed
  /-- What is there or when it was modified is not the same. -/
  | modified
  | removed
  /-- Nothing that matters, such as a file that was read. -/
  | other
  deriving DecidableEq, Repr

/-- What a disk tells about places, given by their paths from the top. -/
structure Notice where
  kind : NoticeKind
  paths : List String
  deriving DecidableEq, Repr

namespace NoticeKind

/-- What happened to a file, given whether something is at its place now. A new name is told of at
both ends; the one where nothing is was deleted. -/
def event? (present : Bool) : NoticeKind → Option EventKind
  | .created => some .created
  | .renamed => some (if present then .created else .deleted)
  | .modified => some .changed
  | .removed => some .deleted
  | .other => none

end NoticeKind

/-- What there is to tell between two looks at a disk: the files that are there now, then those that
are gone. -/
def FileTree.notices (before after : FileTree) : List Notice :=
  let present := after.files.toList.filterMap fun entry =>
    match before.files[entry.1]? with
    | none => some { kind := .created, paths := ["/" ++ entry.1] }
    | some earlier =>
        if earlier.modified = entry.2.modified then none
        else some { kind := .modified, paths := ["/" ++ entry.1] }
  let gone := before.files.keys.filterMap fun place =>
    if after.files.contains place then none
    else some { kind := .removed, paths := ["/" ++ place] }
  present ++ gone

namespace Workspace

/-- The event that a notice comes to for one place, if the file is in the workspace and to be
indexed. -/
def eventAt? (workspace : Workspace) (tree : FileTree) (kind : NoticeKind) (place : String) :
    Option Event := do
  let path ← workspace.relative? place
  if workspace.isIndexable path then
    let happened ← kind.event? (tree.isPresent place)
    return { kind := happened, path := path }
  else
    none

/-- The events that a notice comes to. -/
def translate (workspace : Workspace) (tree : FileTree) (notice : Notice) : List Event :=
  notice.paths.filterMap (workspace.eventAt? tree notice.kind)

end Workspace

end CodeIndex
