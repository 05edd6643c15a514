import CodeIndex.Model.Reindex

/-!
Contract: what requests are answered with.

Owns:
- `Answer`: the things that can be shown.

Does not own: how they are shown.
-/

set_option autoImplicit false

namespace CodeIndex

/-- Something to be shown. -/
inductive Answer where
  /-- What came of bringing an index up to date. -/
  | index (report : Model.Report) (stats : ModelStats)
  | stats (stats : ModelStats)
  | symbols (query : String) (symbols : List Definition)
  | references (name : String) (references : List Reference)
  /-- Imports with the files that they lead to. -/
  | imports (path : String) (imports : List (Import × Option String))
  | importers (path : String) (importers : List String)
  | exports (path : String) (exports : List Export)
  | skeleton (path text : String)
  | search (query : String) (hits : List Search.Hit)
  /-- A workspace is being watched. -/
  | watching (root : String) (files : Nat)

end CodeIndex
