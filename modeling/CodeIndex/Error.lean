/-!
Contract: what can go wrong, as causes.

Owns:
- `Error`: the causes;
- `Error.message`: their wording.
-/

set_option autoImplicit false

namespace CodeIndex

/-- Why a request cannot be answered. -/
inductive Error where
  | projectNotFound (path : String)
  | noProjectRoot
  | index (message : String)
  | outsideWorkspace (path : String)
  /-- A file is missing, in the way or no text. -/
  | io (message : String)
  /-- A configuration cannot be read. -/
  | configuration
  /-- A pattern for paths is malformed. -/
  | glob (pattern : String)
  deriving DecidableEq, Repr

namespace Error

def message : Error → String
  | .projectNotFound path => "Project not found: " ++ path
  | .noProjectRoot =>
      "No project root found (looked for .git, package.json, tsconfig.json, etc.)"
  | .index message => "Index error: " ++ message
  | .outsideWorkspace path => "Path outside workspace: " ++ path
  | .io message => "IO error: " ++ message
  | .configuration => "TOML parse error"
  | .glob pattern => "Glob error: error parsing glob '" ++ pattern ++ "'"

/-- A file that is not there. -/
def missingFile : Error := .io "No such file or directory"

/-- A file whose index is asked for, and that has none. -/
def notIndexed (path : String) : Error := .index (path ++ " is not indexed")

end Error

end CodeIndex
